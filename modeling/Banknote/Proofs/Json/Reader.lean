import Banknote.Proofs.Except
import Banknote.Proofs.Json.Text
import Banknote.Proofs.KeyMap

/-!
# Readers on the documents of values

What a reader answers on a document that comes from a value, and what holds of every answer.

* Simple data: a text, a list of texts and a natural number are read from the values that they are
  written as, also where a document is read whole first.
* Maps.  `map_toDoc` reads a map back entry by entry.
* Records.  `Record.readMembers_toDocMembers` reads the members of a record in any order.  `part`
  describes the draft that holds the fields read so far, which is the invariant of the induction;
  `Record.read_written` goes on to the record itself.
* Answers.  `map_ok` and `Record.read_ok` carry a property of what is read for each part to what is
  read for the whole, and `readText_ok` says that a text is read as a document is.
-/

namespace Banknote.Json

variable {α β δ : Type}

/-! ## Simple data -/

namespace Doc

theorem text_str (s : String) : text (toDoc (.str s)) = .ok s := rfl

theorem list_text_strings (items : List String) :
    list text (toDoc (.strings items)) = .ok items := by
  have hitems : ∀ items : List String, Doc.items text (toDocs (items.map .str)) = .ok items := by
    intro items
    induction items with
    | nil => rfl
    | cons s rest ih =>
      rw [List.map_cons, toDocs, Doc.items, ih]
      rfl
  rw [Json.strings, toDoc, list, hitems]
  rfl

/-- A natural number that fits is read from its numeral. -/
theorem natural_nat {n : Nat} (h : n ≤ maxSignificand) : natural (toDoc (.nat n)) = .ok n := by
  rw [Json.nat, toDoc, natural, value?_ofNat h]

theorem option_of_ne_null {reader : Doc → Except Fault α} {j : Json} {a : α} (hj : j ≠ .null)
    (h : reader (toDoc j) = .ok a) : option reader (toDoc j) = .ok (some a) := by
  cases j with
  | null => exact absurd rfl hj
  | bool | num | str | arr | obj => rw [option, h] <;> simp [toDoc, Except.map]

/-- The double that is read from the text of a double is that very double.  Reading a numeral rounds
more than once, so this does not hold of every double. -/
def Rereads (x : Binary .double) : Prop :=
  readText double (Json.binary x).compact.toList = .ok x

theorem Rereads.double_binary {x : Binary .double} (h : Rereads x) :
    double (toDoc (.binary x)) = .ok x := by
  rwa [Rereads, readText_compact _ (wellFormed_binary x)] at h

/-! ## Documents read whole -/

theorem buffer_str (depth : Nat) (s : String) : buffer depth (toDoc (.str s)) = .ok (.str s) := rfl

theorem buffer_nat (depth : Nat) {n : Nat} (h : n ≤ maxSignificand) :
    buffer depth (toDoc (.nat n)) = .ok (.nat n) := by
  rw [Json.nat, toDoc, buffer, value?_ofNat h]
  rfl

theorem buffer_strings {depth : Nat} (h : depth ≠ 0) (items : List String) :
    buffer depth (toDoc (.strings items)) = .ok (.strings items) := by
  have hitems : ∀ (depth : Nat) (items : List String),
      bufferItems depth (toDocs (items.map .str)) = .ok (items.map .str) := by
    intro depth items
    induction items with
    | nil => rfl
    | cons s rest ih =>
      rw [List.map_cons, toDocs, bufferItems, ih]
      rfl
  rw [Json.strings, toDoc, buffer, if_neg h, hitems]
  rfl

/-- Members that are each read as they are come in key order. -/
theorem bufferMembers_toDocMembers {depth : Nat} {members : List (String × Json)}
    (h : ∀ m ∈ members, buffer depth (toDoc m.2) = .ok m.2) (done : List (String × Json)) :
    bufferMembers depth done (toDocMembers members) =
      .ok (members.foldl (fun done m => KeyMap.put m.1 m.2 done) done) := by
  induction members generalizing done with
  | nil => rfl
  | cons m rest ih =>
    rw [List.forall_mem_cons] at h
    rw [toDocMembers, bufferMembers, h.1]
    exact ih h.2 (KeyMap.put m.1 m.2 done)

/-! ## Maps -/

theorem mapMembers_toDocMembers {value : Doc → Except Fault α} {write : α → Json}
    {entries : List (String × α)} (h : ∀ e ∈ entries, value (toDoc (write e.2)) = .ok e.2)
    (m : KeyMap α) :
    mapMembers value m (toDocMembers (entries.map fun e => (e.1, write e.2))) =
      .ok (entries.foldl (fun m e => m.insert e.1 e.2) m) := by
  induction entries generalizing m with
  | nil => rfl
  | cons e rest ih =>
    rw [List.forall_mem_cons] at h
    rw [List.map_cons, toDocMembers, mapMembers, h.1]
    exact ih h.2 (m.insert e.1 e.2)

/-- A map is read back when its values are. -/
theorem map_toDoc {value : Doc → Except Fault α} {write : α → Json} {m : KeyMap α}
    (h : ∀ e ∈ m.entries, value (toDoc (write e.2)) = .ok e.2) :
    map value (toDoc (.obj (m.entries.map fun e => (e.1, write e.2)))) = .ok m := by
  have hmembers := mapMembers_toDocMembers h .empty
  have hentries : m.entries.foldl (fun m e => m.insert e.1 e.2) .empty = m := m.ofList_entries
  rw [toDoc, map, hmembers, hentries]
  rfl

theorem mapMembers_ok {value : Doc → Except Fault α} {P : α → Prop}
    (h : ∀ d a, value d = .ok a → P a) {members : List (Except TextFault String × Doc)}
    {m m' : KeyMap α} (hm : ∀ e ∈ m.entries, P e.2)
    (hread : mapMembers value m members = .ok m') : ∀ e ∈ m'.entries, P e.2 := by
  induction members generalizing m with
  | nil =>
    cases hread
    exact hm
  | cons member rest ih =>
    obtain ⟨key | key, d⟩ := member
    · cases hread
    · obtain ⟨a, hvalue, hrest⟩ := bind_eq_ok.1 hread
      refine ih (fun e he => ?_) hrest
      rcases KeyMap.mem_entries_insert he with rfl | he
      · exact h d a hvalue
      · exact hm e he

/-- A complaint about the wrong kind of document is no success. -/
theorem mismatch_ne_ok {want : String} {d : Doc} {a : α} : d.mismatch want ≠ .ok a := by
  intro h
  rw [mismatch.eq_def] at h
  split at h
  all_goals first
    | cases h
    | split at h <;> cases h

/-- What holds of every value that is read holds of the values of a map that is read. -/
theorem map_ok {value : Doc → Except Fault α} {P : α → Prop} (h : ∀ d a, value d = .ok a → P a)
    {d : Doc} {m : KeyMap α} (hread : map value d = .ok m) : ∀ e ∈ m.entries, P e.2 := by
  rw [map.eq_def] at hread
  split at hread
  · obtain ⟨m', hmembers, hrest⟩ := bind_eq_ok.1 hread
    obtain ⟨_, _, hm⟩ := bind_eq_ok.1 hrest
    cases hm
    exact mapMembers_ok h (by simp [KeyMap.empty]) hmembers
  · exact absurd hread mismatch_ne_ok

/-- A natural number that is read is below the limit. -/
theorem natural_ok {d : Doc} {n : Nat} (h : natural d = .ok n) : n ≤ maxSignificand := by
  rw [natural.eq_def] at h
  split at h
  · rename_i numeral
    split at h
    · rename_i m hvalue
      cases h
      exact value?_le hvalue
    all_goals cases h
  · exact absurd h mismatch_ne_ok

/-- What is read where data may be absent was read as data. -/
theorem option_ok {reader : Doc → Except Fault α} {d : Doc} {a : α}
    (h : option reader d = .ok (some a)) : reader d = .ok a := by
  rw [option.eq_def] at h
  split at h
  · cases h
  · obtain ⟨a', hread, ha⟩ := map_eq_ok.1 h
    cases ha
    exact hread

end Doc

/-! ## Records -/

/-- The data of a field in a draft: what the record has once the field was read. -/
def given (seen : List String) (field : String) (value absent : α) : α :=
  if field ∈ seen then value else absent

theorem given_eq_value {seen : List String} {field : String} {value absent : α}
    (h : field ∈ seen ∨ value = absent) : given seen field value absent = value := by
  rw [given]
  split
  · rfl
  · rename_i hseen
    exact (h.resolve_left hseen).symm

namespace Record

/-- The members of a record are read in any order. -/
theorem readMembers_toDocMembers (r : Record δ) (part : List String → δ) (seen : List String)
    {members : List (String × Json)} (hfields : ∀ m ∈ members, m.1 ∈ r.fields)
    (hset : ∀ m ∈ members, ∀ seen, r.set (part seen) m.1 (toDoc m.2) = .ok (part (m.1 :: seen)))
    (hnodup : (members.map Prod.fst).Nodup) (hseen : ∀ m ∈ members, m.1 ∉ seen) :
    r.readMembers (part seen) seen (toDocMembers members) =
      .ok (part ((members.map Prod.fst).reverse ++ seen)) := by
  induction members generalizing seen with
  | nil => rfl
  | cons m rest ih =>
    rw [List.forall_mem_cons] at hfields hset hseen
    rw [List.map_cons, List.nodup_cons] at hnodup
    have hnew : ∀ m' ∈ rest, m'.1 ∉ m.1 :: seen := by
      intro m' hm' hmem
      rcases List.mem_cons.1 hmem with heq | hmem
      · exact hnodup.1 (heq ▸ List.mem_map_of_mem hm')
      · exact hseen.2 m' hm' hmem
    have hrest := ih (m.1 :: seen) hfields.2 hset.2 hnodup.2 hnew
    rw [toDocMembers, readMembers, if_pos (by simpa using hfields.1),
      if_neg (by simpa using hseen.1), hset.1 seen, List.map_cons, List.reverse_cons,
      List.append_assoc]
    exact hrest

/-- A record is read from its members in any order, provided that the draft with all of them is the
record. -/
theorem read_toDoc (r : Record δ) (part : List String → δ) {empty : δ}
    {finish : Form → δ → Except Fault α} {members : List (String × Json)}
    (hempty : part [] = empty) (hfields : ∀ m ∈ members, m.1 ∈ r.fields)
    (hset : ∀ m ∈ members, ∀ seen, r.set (part seen) m.1 (toDoc m.2) = .ok (part (m.1 :: seen)))
    (hnodup : (members.map Prod.fst).Nodup) :
    r.read empty finish (toDoc (.obj members)) =
      finish .members (part (members.map Prod.fst).reverse) := by
  have hmembers := r.readMembers_toDocMembers part [] hfields hset hnodup (by simp)
  rw [hempty, List.append_nil] at hmembers
  rw [toDoc, read, hmembers]
  rfl

/-- A record whose draft needs no finish is read from its written members in any order. -/
theorem read_written (r : Record δ) (part : List String → δ) {empty whole : δ}
    {written members : List (String × Json)} (hempty : part [] = empty)
    (hkeys : (written.map Prod.fst).Sublist r.fields) (hnodup : r.fields.Nodup)
    (hset : ∀ m ∈ written, ∀ seen, r.set (part seen) m.1 (toDoc m.2) = .ok (part (m.1 :: seen)))
    (hwhole : ∀ seen, (∀ m ∈ written, m.1 ∈ seen) → part seen = whole)
    (hperm : members.Perm written) :
    r.read empty (fun _ draft => .ok draft) (toDoc (.obj members)) = .ok whole := by
  have hmem : ∀ m ∈ members, m ∈ written := fun m => hperm.mem_iff.1
  have hfields : ∀ m ∈ members, m.1 ∈ r.fields := fun m hm =>
    hkeys.subset (List.mem_map_of_mem (hmem m hm))
  have hmembers : (members.map Prod.fst).Nodup :=
    (hperm.map Prod.fst).nodup_iff.2 (hkeys.nodup hnodup)
  rw [r.read_toDoc part hempty hfields (fun m hm => hset m (hmem m hm)) hmembers]
  refine congrArg Except.ok (hwhole _ fun m hm => ?_)
  rw [List.mem_reverse]
  exact List.mem_map_of_mem (hperm.mem_iff.2 hm)

theorem readMembers_ok (r : Record δ) {P : δ → Prop}
    (hset : ∀ draft field d draft', P draft → r.set draft field d = .ok draft' → P draft')
    {members : List (Except TextFault String × Doc)} {draft draft' : δ} {seen : List String}
    (hdraft : P draft) (hread : r.readMembers draft seen members = .ok draft') : P draft' := by
  induction members generalizing draft seen with
  | nil =>
    cases hread
    exact hdraft
  | cons member rest ih =>
    obtain ⟨key | key, d⟩ := member
    · cases hread
    · rw [readMembers] at hread
      split at hread
      · split at hread
        · cases hread
        · obtain ⟨next, hnext, hrest⟩ := bind_eq_ok.1 hread
          exact ih (hset draft key d next hdraft hnext) hrest
      · split at hread
        · cases hread
        · obtain ⟨_, _, hrest⟩ := bind_eq_ok.1 hread
          exact ih hdraft hrest

theorem readItems_ok (r : Record δ) {P : δ → Prop}
    (hset : ∀ draft field d draft', P draft → r.set draft field d = .ok draft' → P draft')
    {fields : List String} {items : List Doc} {draft draft' : δ}
    (hdraft : P draft) (hread : r.readItems draft fields items = .ok draft') : P draft' := by
  induction items generalizing draft fields with
  | nil =>
    cases fields <;> (cases hread; exact hdraft)
  | cons d rest ih =>
    cases fields with
    | nil => cases hread
    | cons field fields =>
      obtain ⟨next, hnext, hrest⟩ := bind_eq_ok.1 hread
      exact ih (hset draft field d next hdraft hnext) hrest

/-- What every field keeps holds of the draft that a record is finished from. -/
theorem read_ok (r : Record δ) {P : δ → Prop} {empty : δ} {finish : Form → δ → Except Fault α}
    (hempty : P empty)
    (hset : ∀ draft field d draft', P draft → r.set draft field d = .ok draft' → P draft')
    {d : Doc} {a : α} (hread : r.read empty finish d = .ok a) :
    ∃ form draft, P draft ∧ finish form draft = .ok a := by
  rw [read.eq_def] at hread
  split at hread
  · obtain ⟨draft, hmembers, hrest⟩ := bind_eq_ok.1 hread
    obtain ⟨_, _, hfinish⟩ := bind_eq_ok.1 hrest
    exact ⟨_, draft, r.readMembers_ok hset hempty hmembers, hfinish⟩
  · obtain ⟨draft, hitems, hrest⟩ := bind_eq_ok.1 hread
    obtain ⟨_, _, hfinish⟩ := bind_eq_ok.1 hrest
    exact ⟨_, draft, r.readItems_ok hset hempty hitems, hfinish⟩
  · exact absurd hread Doc.mismatch_ne_ok

end Record

end Banknote.Json
