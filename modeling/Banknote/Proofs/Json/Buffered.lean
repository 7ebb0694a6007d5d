import Banknote.Proofs.Json.Layout
import Banknote.Proofs.Json.Order
import Mathlib.Data.List.Forall2

/-!
# Documents that are read whole

A document can be read from front to back, or it can be read whole before its data are looked at
(`Doc.buffer`).  Both ways lead to the same data if the document is a JSON value whose objects
repeat no name: then nothing is lost when the members of an object are put in key order.

* Values.  `Doc.IsValue` says what such a document is, and `Doc.Buffered` what each kind of document
  is read as.  `exists_members_buffered` is about the members of an object, whose order changes.
* Readers.  `Doc.ReadsBuffered` says that a reader answers alike on a document and on what the
  document is read whole as.  There is one lemma for each reader.  Reals are where it matters that
  only answers are compared: a real is rounded when it is written, but no reader of a natural number
  takes it.
* Depth.  `Doc.FitsDepth` says that what a reader takes can be read whole, and how deep it may be
  nested for that.
-/

namespace Banknote.Json

variable {α δ : Type}

/-! ## Numbers -/

/-- The natural number that a number is, if it is one. -/
def Number.natural? : Number → Option Nat
  | .natural m => some m
  | _ => none

theorem Numeral.natural?_negative {n : Numeral} (h : n.negative = true) :
    n.value?.bind Number.natural? = none := by
  rw [value?]
  split
  · split <;> rfl
  · cases n.real? <;> rfl

/-- A number that is read and written again is the same natural number, or again none. -/
theorem Number.natural?_ofNumber {n : Numeral} {v : Number} (h : n.value? = some v) :
    (Numeral.ofNumber v).value?.bind natural? = natural? v := by
  cases v with
  | natural m =>
    rw [Numeral.ofNumber, value?_ofNat (value?_le h)]
    rfl
  | negative m => exact Numeral.natural?_negative rfl
  | real x =>
    rw [Numeral.ofNumber, Numeral.ofBinary, value?_ofDecimal]
    cases (Numeral.ofDecimal (Numeral.layout .double) x.shortest).real? <;> rfl

namespace Doc

/-! ## Values -/

/-- A JSON value: nothing breaks the document off, and no object in it repeats a name. -/
inductive IsValue : Doc → Prop
  | null : IsValue .null
  | bool (b : Bool) : IsValue (.bool b)
  | num (n : Numeral) : IsValue (.num n)
  | str (s : Except TextFault String) : IsValue (.str s)
  | arr {items : List Doc} (hitems : ∀ d ∈ items, IsValue d) : IsValue (.arr items none)
  | obj {members : List (Except TextFault String × Doc)} (hnames : members.Pairwise NamesDiffer)
    (hmembers : ∀ m ∈ members, IsValue m.2) : IsValue (.obj members none)

/-- What a document that can be read whole is read as. -/
inductive Buffered (depth : Nat) : Doc → Json → Prop
  | null : Buffered depth .null .null
  | bool (b : Bool) : Buffered depth (.bool b) (.bool b)
  | num {n : Numeral} {v : Number} (hvalue : n.value? = some v) :
    Buffered depth (.num n) (.num (.ofNumber v))
  | str (s : String) : Buffered depth (.str (.ok s)) (.str s)
  | arr {ds : List Doc} {js : List Json} (hitems : bufferItems (depth - 1) ds = .ok js) :
    Buffered depth (.arr ds none) (.arr js)
  | obj {ms : List (Except TextFault String × Doc)} {js : List (String × Json)}
    (hmembers : bufferMembers (depth - 1) [] ms = .ok js) : Buffered depth (.obj ms none) (.obj js)

variable {d : Doc} {j : Json} {depth : Nat}

theorem unbroken_eq_ok {ending : Option TextFault} (h : unbroken ending = .ok ()) :
    ending = none := by
  cases ending with
  | none => rfl
  | some fault => cases h

theorem buffered_of_buffer (h : d.buffer depth = .ok j) : Buffered depth d j := by
  cases d with
  | null =>
    cases h
    exact .null
  | bool b =>
    cases h
    exact .bool b
  | num n =>
    rw [buffer] at h
    split at h
    · rename_i v hvalue
      cases h
      exact .num hvalue
    · cases h
  | str s =>
    cases s with
    | error fault => cases h
    | ok s =>
      cases h
      exact .str s
  | arr ds ending =>
    rw [buffer] at h
    split at h
    · cases h
    · obtain ⟨js, hitems, hrest⟩ := bind_eq_ok.1 h
      obtain ⟨_, hending, hj⟩ := bind_eq_ok.1 hrest
      obtain rfl := unbroken_eq_ok hending
      cases hj
      exact .arr hitems
  | obj ms ending =>
    rw [buffer] at h
    split at h
    · cases h
    · obtain ⟨js, hmembers, hrest⟩ := bind_eq_ok.1 h
      obtain ⟨_, hending, hj⟩ := bind_eq_ok.1 hrest
      obtain rfl := unbroken_eq_ok hending
      cases hj
      exact .obj hmembers
  | broken fault => cases h

/-- A member has been read whole as a name and a value. -/
def MemberBuffered (depth : Nat) (m : Except TextFault String × Doc) (p : String × Json) : Prop :=
  m.1 = .ok p.1 ∧ m.2.buffer depth = .ok p.2

theorem bufferMembers_forall₂ {ms : List (Except TextFault String × Doc)}
    {done js : List (String × Json)} (h : bufferMembers depth done ms = .ok js) :
    ∃ pairs, List.Forall₂ (MemberBuffered depth) ms pairs ∧
      js = pairs.foldl (fun done p => KeyMap.put p.1 p.2 done) done := by
  induction ms generalizing done with
  | nil =>
    cases h
    exact ⟨[], .nil, rfl⟩
  | cons m ms ih =>
    obtain ⟨fault | key, d⟩ := m
    · cases h
    · obtain ⟨j, hj, hrest⟩ := bind_eq_ok.1 h
      obtain ⟨pairs, hpairs, rfl⟩ := ih hrest
      exact ⟨(key, j) :: pairs, .cons ⟨rfl, hj⟩ hpairs, rfl⟩

theorem toDocMembers_eq_map (pairs : List (String × Json)) :
    toDocMembers pairs = pairs.map fun p => (.ok p.1, toDoc p.2) := by
  induction pairs with
  | nil => rfl
  | cons p pairs ih => rw [toDocMembers, ih, List.map_cons]

theorem toDocs_eq_map (js : List Json) : toDocs js = js.map toDoc := by
  induction js with
  | nil => rfl
  | cons j js ih => rw [toDocs, ih, List.map_cons]

theorem names_eq {ms : List (Except TextFault String × Doc)} {pairs : List (String × Json)}
    (h : List.Forall₂ (MemberBuffered depth) ms pairs) :
    ms.map Prod.fst = pairs.map fun p => .ok p.1 := by
  induction h with
  | nil => rfl
  | cons hm _ ih => rw [List.map_cons, List.map_cons, ih, hm.1]

/-- Names that differ in a document differ in what it is read as. -/
theorem nodup_of_namesDiffer {ms : List (Except TextFault String × Doc)}
    {pairs : List (String × Json)} (h : List.Forall₂ (MemberBuffered depth) ms pairs)
    (hnames : ms.Pairwise NamesDiffer) : (pairs.map Prod.fst).Nodup := by
  have hkeys : (ms.map Prod.fst).Pairwise fun key key' =>
      ∀ name, key = .ok name → key' ≠ .ok name := List.pairwise_map.2 hnames
  rw [names_eq h, List.pairwise_map] at hkeys
  refine List.pairwise_map.2 (hkeys.imp fun hdiffer heq => hdiffer _ rfl ?_)
  rw [heq]

/-- The members of an object are read whole one by one, and what they are read as is put in
order. -/
theorem exists_members_buffered {ms : List (Except TextFault String × Doc)}
    {js : List (String × Json)} (hnames : ms.Pairwise NamesDiffer)
    (h : bufferMembers depth [] ms = .ok js) :
    ∃ pairs, List.Forall₂ (MemberBuffered depth) ms pairs ∧
      (toDocMembers pairs).Pairwise NamesDiffer ∧ (toDocMembers pairs).Perm (toDocMembers js) := by
  obtain ⟨pairs, hpairs, rfl⟩ := bufferMembers_forall₂ h
  have hnodup := nodup_of_namesDiffer hpairs hnames
  have hperm := KeyMap.foldl_put_perm pairs [] hnodup (by simp)
  rw [List.append_nil] at hperm
  refine ⟨pairs, hpairs, ?_, ?_⟩
  · rw [toDocMembers_eq_map, List.pairwise_map]
    refine (List.pairwise_map.1 hnodup).imp fun hne name hname hname' => hne ?_
    exact Except.ok.inj (hname.trans hname'.symm)
  · rw [toDocMembers_eq_map, toDocMembers_eq_map]
    exact (hperm.map _).symm

/-! ## Readers of parts -/

/-- A reader answers alike on a document and on the value that it is read whole as. -/
def ReadsBuffered (reader : Doc → Except Fault α) : Prop :=
  ∀ {d : Doc} {depth : Nat} {j : Json}, d.IsValue → d.buffer depth = .ok j →
    (reader d).toOption = (reader (toDoc j)).toOption

theorem readsBuffered_text : ReadsBuffered text := by
  intro d depth j _ h
  cases buffered_of_buffer h with
  | str => rfl
  | _ => simp [text, toDoc, toOption_mismatch]

theorem readsBuffered_unit : ReadsBuffered unit := by
  intro d depth j _ h
  cases buffered_of_buffer h with
  | null => rfl
  | _ => simp [unit, toDoc, toOption_mismatch]

theorem toOption_natural_num (n : Numeral) :
    (natural (.num n)).toOption = n.value?.bind Number.natural? := by
  rw [natural]
  cases n.value? with
  | none => rfl
  | some v => cases v <;> rfl

theorem readsBuffered_natural : ReadsBuffered natural := by
  intro d depth j _ h
  cases buffered_of_buffer h with
  | num hvalue =>
    rw [toDoc, toOption_natural_num, toOption_natural_num, Number.natural?_ofNumber hvalue, hvalue]
    rfl
  | _ => simp [natural, toDoc, toOption_mismatch]

theorem readsBuffered_option {reader : Doc → Except Fault α} (h : ReadsBuffered reader) :
    ReadsBuffered (option reader) := by
  intro d depth j hd hj
  have hread := h hd hj
  cases buffered_of_buffer hj with
  | null | bool | str => rfl
  | _ =>
    rw [toDoc] at hread ⊢
    simp only [option, toOption_map, hread]

theorem toOption_items_buffered {item : Doc → Except Fault α} (h : ReadsBuffered item)
    {ds : List Doc} {js : List Json} (hds : ∀ d ∈ ds, d.IsValue)
    (hjs : bufferItems depth ds = .ok js) :
    (items item ds).toOption = (items item (toDocs js)).toOption := by
  induction ds generalizing js with
  | nil =>
    cases hjs
    rfl
  | cons d ds ih =>
    obtain ⟨j, hj, hrest⟩ := bind_eq_ok.1 hjs
    obtain ⟨js', hjs', heq⟩ := bind_eq_ok.1 hrest
    cases heq
    rw [List.forall_mem_cons] at hds
    refine toOption_bind_congr (h hds.1 hj) fun a => ?_
    exact toOption_bind_congr (ih hds.2 hjs') fun _ => rfl

theorem readsBuffered_list {item : Doc → Except Fault α} (h : ReadsBuffered item) :
    ReadsBuffered (list item) := by
  intro d depth j hd hj
  cases buffered_of_buffer hj with
  | arr hitems =>
    cases hd with
    | arr hds => exact toOption_bind_congr (toOption_items_buffered h hds hitems) fun _ => rfl
  | _ => simp [list, toDoc, toOption_mismatch]

theorem readsBuffered_choice (source : Source) (choices : List (String × α)) :
    ReadsBuffered (choice source choices) := by
  intro d depth j hd hj
  cases buffered_of_buffer hj with
  | str => rfl
  | @obj ms js hmembers =>
    cases hd with
    | obj hnames hvalues =>
      obtain ⟨pairs, hpairs, _, hperm⟩ := exists_members_buffered hnames hmembers
      have hlength : ms.length = (toDocMembers js).length := by
        rw [← hperm.length_eq, toDocMembers_eq_map, List.length_map, hpairs.length_eq]
      rw [toDoc]
      -- A choice is a single member, so an object with another number of members is refused.
      by_cases hone : ms.length = 1
      · obtain ⟨m, rfl⟩ := List.length_eq_one_iff.1 hone
        obtain ⟨p, rest, hm, hrest, rfl⟩ := List.forall₂_cons_left_iff.1 hpairs
        cases hrest
        rw [toDocMembers, toDocMembers, List.singleton_perm] at hperm
        rw [← hperm, toOption_choice_member, toOption_choice_member, withName, withName, hm.1]
        refine toOption_bind_congr rfl fun a => ?_
        exact toOption_bind_congr (readsBuffered_unit (hvalues m (by simp)) hm.2) fun _ => rfl
      · rw [toOption_choice_of_length_ne_one source choices hone,
          toOption_choice_of_length_ne_one source choices (hlength ▸ hone)]
  | num _ =>
    cases source with
    | streamed => rfl
    | buffered => simp only [choice, toDoc, toOption_mismatch]
  | _ => cases source <;> rfl

/-! ## How deep data are nested -/

/-- What a reader takes can be read whole even if only so many arrays and objects may be nested. -/
def FitsDepth (depth : Nat) (reader : Doc → Except Fault α) : Prop :=
  ∀ {d : Doc} {a : α}, d.IsValue → reader d = .ok a → ∃ j, d.buffer depth = .ok j

theorem fitsDepth_text (depth : Nat) : FitsDepth depth text := by
  intro d a _ h
  rw [text.eq_def] at h
  split at h
  · exact ⟨_, rfl⟩
  · exact absurd h mismatch_ne_ok

theorem fitsDepth_natural (depth : Nat) : FitsDepth depth natural := by
  intro d a _ h
  rw [natural.eq_def] at h
  split at h
  · rename_i n
    split at h
    · rename_i m hvalue
      exact ⟨.num (.ofNumber (.natural m)), by rw [buffer, hvalue]⟩
    all_goals cases h
  · exact absurd h mismatch_ne_ok

theorem fitsDepth_unit (depth : Nat) : FitsDepth depth unit := by
  intro d a _ h
  rw [unit.eq_def] at h
  split at h
  · exact ⟨.null, rfl⟩
  · exact absurd h mismatch_ne_ok

theorem fitsDepth_option {reader : Doc → Except Fault α} (h : FitsDepth depth reader) :
    FitsDepth depth (option reader) := by
  intro d a hd hread
  rw [option.eq_def] at hread
  split at hread
  · exact ⟨.null, rfl⟩
  · obtain ⟨a', ha', _⟩ := map_eq_ok.1 hread
    exact h hd ha'

theorem exists_bufferItems {item : Doc → Except Fault α} (h : FitsDepth depth item) {ds : List Doc}
    {as : List α} (hds : ∀ d ∈ ds, d.IsValue) (hread : items item ds = .ok as) :
    ∃ js, bufferItems depth ds = .ok js := by
  induction ds generalizing as with
  | nil => exact ⟨[], rfl⟩
  | cons d ds ih =>
    rw [List.forall_mem_cons] at hds
    obtain ⟨a, ha, hrest⟩ := bind_eq_ok.1 hread
    obtain ⟨as', has', _⟩ := bind_eq_ok.1 hrest
    obtain ⟨j, hj⟩ := h hds.1 ha
    obtain ⟨js, hjs⟩ := ih hds.2 has'
    exact ⟨j :: js, by rw [bufferItems, hj, hjs]; rfl⟩

theorem buffer_arr {ds : List Doc} {js : List Json} (h : bufferItems depth ds = .ok js) :
    buffer (depth + 1) (.arr ds none) = .ok (.arr js) := by
  rw [buffer, if_neg (Nat.succ_ne_zero depth), Nat.add_sub_cancel, h]
  rfl

theorem buffer_obj {ms : List (Except TextFault String × Doc)} {js : List (String × Json)}
    (h : bufferMembers depth [] ms = .ok js) :
    buffer (depth + 1) (.obj ms none) = .ok (.obj js) := by
  rw [buffer, if_neg (Nat.succ_ne_zero depth), Nat.add_sub_cancel, h]
  rfl

theorem fitsDepth_list {item : Doc → Except Fault α} (h : FitsDepth depth item) :
    FitsDepth (depth + 1) (list item) := by
  intro d a hd hread
  rw [list.eq_def] at hread
  split at hread
  · obtain ⟨as, has, _⟩ := bind_eq_ok.1 hread
    cases hd with
    | arr hds =>
      obtain ⟨js, hjs⟩ := exists_bufferItems h hds has
      exact ⟨.arr js, buffer_arr hjs⟩
  · exact absurd hread mismatch_ne_ok

theorem fitsDepth_choice (depth : Nat) (choices : List (String × α)) :
    FitsDepth (depth + 1) (choice .buffered choices) := by
  intro d a hd hread
  cases hd with
  | str s =>
    cases s with
    | error fault => cases hread
    | ok word => exact ⟨.str word, rfl⟩
  | @obj ms _ hvalues =>
    match ms, hread with
    | [(.ok word, d)], hread =>
      obtain ⟨_, _, hrest⟩ := bind_eq_ok.1 hread
      obtain ⟨_, hunit, _⟩ := bind_eq_ok.1 hrest
      obtain ⟨j, hj⟩ := fitsDepth_unit depth (hvalues _ List.mem_cons_self) hunit
      exact ⟨.obj [(word, j)], buffer_obj (by rw [bufferMembers, hj]; rfl)⟩
    | [], hread | [(.error _, _)], hread | (.ok _, _) :: _ :: _, hread
    | (.error _, _) :: _ :: _, hread => cases hread
  | _ =>
    simp only [choice] at hread
    exact absurd hread mismatch_ne_ok

end Doc

/-! ## Records -/

namespace Record

open Doc (IsValue NamesDiffer MemberBuffered ReadsBuffered FitsDepth)

variable {r : Record δ} {depth : Nat}

theorem toOption_readMembers_buffered (hclosed : r.closed = true)
    (hset : ∀ draft field, ReadsBuffered (r.set draft field))
    {ms : List (Except TextFault String × Doc)} {pairs : List (String × Json)}
    (hms : ∀ m ∈ ms, m.2.IsValue) (hpairs : List.Forall₂ (MemberBuffered depth) ms pairs)
    (draft : δ) (seen : List String) :
    (r.readMembers draft seen ms).toOption =
      (r.readMembers draft seen (toDocMembers pairs)).toOption := by
  induction hpairs generalizing draft seen with
  | nil => rfl
  | @cons m p ms pairs hm _ ih =>
    obtain ⟨key, d⟩ := m
    obtain ⟨rfl, hj⟩ := hm
    rw [List.forall_mem_cons] at hms
    rw [toDocMembers, readMembers, readMembers, if_pos hclosed, if_pos hclosed]
    split
    · split
      · rfl
      · exact toOption_bind_congr (hset draft p.1 hms.1 hj) fun draft => ih hms.2 draft _
    · rfl

theorem toOption_readItems_buffered (hset : ∀ draft field, ReadsBuffered (r.set draft field))
    {ds : List Doc} {js : List Json} (hds : ∀ d ∈ ds, d.IsValue)
    (hjs : Doc.bufferItems depth ds = .ok js) (draft : δ) (fields : List String) :
    (r.readItems draft fields ds).toOption = (r.readItems draft fields (toDocs js)).toOption := by
  induction ds generalizing js draft fields with
  | nil =>
    cases hjs
    rfl
  | cons d ds ih =>
    obtain ⟨j, hj, hrest⟩ := bind_eq_ok.1 hjs
    obtain ⟨js', hjs', heq⟩ := bind_eq_ok.1 hrest
    cases heq
    rw [List.forall_mem_cons] at hds
    cases fields with
    | nil => rfl
    | cons field fields =>
      exact toOption_bind_congr (hset draft field hds.1 hj) fun draft => ih hds.2 hjs' draft fields

theorem length_bufferItems {ds : List Doc} {js : List Json}
    (h : Doc.bufferItems depth ds = .ok js) : js.length = ds.length := by
  induction ds generalizing js with
  | nil =>
    cases h
    rfl
  | cons d ds ih =>
    obtain ⟨j, _, hrest⟩ := bind_eq_ok.1 h
    obtain ⟨js', hjs', heq⟩ := bind_eq_ok.1 hrest
    cases heq
    rw [List.length_cons, List.length_cons, ih hjs']

/-- A record that refuses other members is read alike if its fields are, whichever is read first. -/
theorem readsBuffered_read (hclosed : r.closed = true)
    (hset : ∀ draft field, ReadsBuffered (r.set draft field)) (hfields : r.FieldsCommute)
    (empty : δ) (finish : Form → δ → Except Fault α) : ReadsBuffered (r.read empty finish) := by
  intro d depth j hd hj
  cases Doc.buffered_of_buffer hj with
  | arr hitems =>
    cases hd with
    | arr hds =>
      have hlength := length_bufferItems hitems
      simp only [toDoc, read, Doc.toDocs_eq_map, List.length_map, hlength]
      rw [← Doc.toDocs_eq_map]
      exact toOption_bind_congr (toOption_readItems_buffered hset hds hitems empty r.fields)
        fun _ => rfl
  | obj hmembers =>
    cases hd with
    | obj hnames hvalues =>
      obtain ⟨pairs, hpairs, hdiffer, hperm⟩ := Doc.exists_members_buffered hnames hmembers
      have hread := (toOption_readMembers_buffered hclosed hset hvalues hpairs empty []).trans
        (readMembers_perm hclosed hfields hperm hdiffer empty)
      exact toOption_bind_congr hread fun _ => rfl
  | _ => simp [read, toDoc, Doc.toOption_mismatch]

theorem exists_bufferMembers (hclosed : r.closed = true)
    (hset : ∀ draft field, FitsDepth depth (r.set draft field))
    {ms : List (Except TextFault String × Doc)} (hms : ∀ m ∈ ms, m.2.IsValue) {draft draft' : δ}
    {seen : List String} (hread : r.readMembers draft seen ms = .ok draft')
    (done : List (String × Json)) : ∃ js, Doc.bufferMembers depth done ms = .ok js := by
  induction ms generalizing draft seen done with
  | nil => exact ⟨done, rfl⟩
  | cons m ms ih =>
    obtain ⟨fault | key, d⟩ := m
    · cases hread
    · rw [List.forall_mem_cons] at hms
      rw [readMembers, if_pos hclosed] at hread
      split at hread
      · split at hread
        · cases hread
        · obtain ⟨next, hnext, hrest⟩ := bind_eq_ok.1 hread
          obtain ⟨j, hj⟩ := hset draft key hms.1 hnext
          obtain ⟨js, hjs⟩ := ih hms.2 hrest (KeyMap.put key j done)
          exact ⟨js, by rw [Doc.bufferMembers, hj]; exact hjs⟩
      · cases hread

theorem exists_bufferItems (hset : ∀ draft field, FitsDepth depth (r.set draft field))
    {ds : List Doc} (hds : ∀ d ∈ ds, d.IsValue) {draft draft' : δ} {fields : List String}
    (hread : r.readItems draft fields ds = .ok draft') :
    ∃ js, Doc.bufferItems depth ds = .ok js := by
  induction ds generalizing draft fields with
  | nil => exact ⟨[], rfl⟩
  | cons d ds ih =>
    rw [List.forall_mem_cons] at hds
    cases fields with
    | nil => cases hread
    | cons field fields =>
      obtain ⟨next, hnext, hrest⟩ := bind_eq_ok.1 hread
      obtain ⟨j, hj⟩ := hset draft field hds.1 hnext
      obtain ⟨js, hjs⟩ := ih hds.2 hrest
      exact ⟨j :: js, by rw [Doc.bufferItems, hj, hjs]; rfl⟩

/-- A record that refuses other members is nested one deeper than its fields. -/
theorem fitsDepth_read (hclosed : r.closed = true)
    (hset : ∀ draft field, FitsDepth depth (r.set draft field)) (empty : δ)
    (finish : Form → δ → Except Fault α) : FitsDepth (depth + 1) (r.read empty finish) := by
  intro d a hd hread
  cases hd with
  | arr hds =>
    obtain ⟨draft, hdraft, _⟩ := bind_eq_ok.1 hread
    obtain ⟨js, hjs⟩ := exists_bufferItems hset hds hdraft
    exact ⟨.arr js, Doc.buffer_arr hjs⟩
  | obj _ hvalues =>
    obtain ⟨draft, hdraft, _⟩ := bind_eq_ok.1 hread
    obtain ⟨js, hjs⟩ := exists_bufferMembers hclosed hset hvalues hdraft []
    exact ⟨.obj js, Doc.buffer_obj hjs⟩
  | _ =>
    simp only [read] at hread
    exact absurd hread Doc.mismatch_ne_ok

end Record

end Banknote.Json
