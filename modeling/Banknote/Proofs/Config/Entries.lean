import Banknote.Proofs.Config.Splitting
import Banknote.Proofs.Json.Buffered

/-!
# Entries of a serial tree and entries on their own

An entry is read in two ways: as a member of a serial tree, which is split when it has been read
whole (`Serial.ofDoc`), and on its own (`Entry.ofDoc`).  This module compares the two.

* Directives.  Read whole or not, a directive is read alike, and it is nested two deep at most.
* Entries.  `Entry.ofDoc_eq_ok_iff`: a value that is no list is an entry on its own exactly if what
  it is read whole as describes one.
* Trees.  `Serial.ofDoc_withMember` says what a tree with one member more is read as: its members
  are those of the tree, and one of them is put in.
* `Serial.ofDoc_added` has both: the two ways agree on every value but on lists.  A list of the
  fields of a directive is an entry on its own and none in a tree.
-/

namespace Banknote.Config

open Json
open Doc (IsValue ReadsBuffered FitsDepth)

/-! ## Directives -/

theorem fieldsCommute_directiveRecord (source : Source) :
    (directiveRecord source).FieldsCommute := by
  intro draft key key' d d' hkey hkey' hne
  simp only [directiveRecord, List.mem_cons, List.not_mem_nil, or_false] at hkey hkey'
  rcases hkey with rfl | rfl | rfl | rfl | rfl | rfl | rfl | rfl <;>
    rcases hkey' with rfl | rfl | rfl | rfl | rfl | rfl | rfl | rfl
  all_goals first
    | exact absurd rfl hne
    | refine toOption_map_comm fun _ _ => ?_
      rfl

theorem readsBuffered_strings : ReadsBuffered strings :=
  Doc.readsBuffered_list Doc.readsBuffered_text

/-- A directive is read alike from a document and from the value that it is read whole as. -/
theorem Directive.readsBuffered_ofDoc : ReadsBuffered (Directive.ofDoc .buffered) := by
  refine Record.readsBuffered_read rfl (fun draft field d depth j hd hj => ?_)
    (fieldsCommute_directiveRecord .buffered) _ _
  simp only [directiveRecord]
  split
  all_goals simp only [toOption_map]
  · rw [Doc.readsBuffered_option Doc.readsBuffered_text hd hj]
  · rw [Doc.readsBuffered_option Doc.readsBuffered_text hd hj]
  · rw [Doc.readsBuffered_choice .buffered directions hd hj]
  · rw [Doc.readsBuffered_natural hd hj]
  · rw [Doc.readsBuffered_choice .buffered joinMethods hd hj]
  · rw [readsBuffered_strings hd hj]
  · rw [readsBuffered_strings hd hj]
  · rw [readsBuffered_strings hd hj]

/-- A directive is nested two deep at most: its lists are inside it. -/
theorem Directive.fitsDepth_ofDoc {depth : Nat} (h : 2 ≤ depth) :
    FitsDepth depth (Directive.ofDoc .buffered) := by
  obtain ⟨depth, rfl⟩ := Nat.exists_eq_add_of_le' h
  refine Record.fitsDepth_read rfl (fun draft field d _ hd hread => ?_) _ _
  simp only [directiveRecord] at hread
  split at hread
  all_goals obtain ⟨_, hpart, _⟩ := map_eq_ok.1 hread
  · exact Doc.fitsDepth_option (Doc.fitsDepth_text _) hd hpart
  · exact Doc.fitsDepth_option (Doc.fitsDepth_text _) hd hpart
  · exact Doc.fitsDepth_choice depth directions hd hpart
  · exact Doc.fitsDepth_natural _ hd hpart
  · exact Doc.fitsDepth_choice depth joinMethods hd hpart
  · exact Doc.fitsDepth_list (Doc.fitsDepth_text _) hd hpart
  · exact Doc.fitsDepth_list (Doc.fitsDepth_text _) hd hpart
  · exact Doc.fitsDepth_list (Doc.fitsDepth_text _) hd hpart

/-! ## Entries on their own -/

variable {v : Doc} {e : Entry} {depth : Nat}

/-- An entry on its own that is no name is a directive. -/
theorem Entry.ofDoc_eq_directive (hv : v.IsValue) (hname : ∀ name, v ≠ .str (.ok name)) :
    Entry.ofDoc v = .ok e ↔
      ∃ directive, e = .concrete directive ∧ Directive.ofDoc .buffered v = .ok directive := by
  rw [Entry.ofDoc.eq_def, bind_eq_ok]
  constructor
  · rintro ⟨_, _, h⟩
    split at h
    · exact absurd rfl (hname _)
    · split at h
      · rename_i directive hdirective
        cases h
        exact ⟨directive, rfl, hdirective⟩
      · cases h
  · rintro ⟨directive, rfl, hdirective⟩
    obtain ⟨j, hj⟩ := Directive.fitsDepth_ofDoc (by decide : 2 ≤ maxDepth) hv hdirective
    refine ⟨j, hj, ?_⟩
    split
    · exact absurd rfl (hname _)
    · rw [hdirective]
      rfl

/-- A value that is no list is an entry on its own exactly if what it is read whole as describes
one. -/
theorem Entry.ofDoc_eq_ok_iff (hv : v.IsValue) (hlist : ∀ items, v ≠ .arr items none)
    (hdepth : 2 ≤ depth) :
    Entry.ofDoc v = .ok e ↔ ∃ j, v.buffer depth = .ok j ∧ Describes j e := by
  by_cases hname : ∃ name, v = .str (.ok name)
  · obtain ⟨name, rfl⟩ := hname
    constructor
    · intro h
      cases h
      exact ⟨.str name, rfl, .name name⟩
    · rintro ⟨j, hj, hdescribes⟩
      cases hj
      cases hdescribes
      rfl
  · rw [Entry.ofDoc_eq_directive hv fun name hv => hname ⟨name, hv⟩]
    constructor
    · rintro ⟨directive, rfl, hdirective⟩
      obtain ⟨j, hj⟩ := Directive.fitsDepth_ofDoc hdepth hv hdirective
      have hread := Directive.readsBuffered_ofDoc hv hj
      rw [hdirective] at hread
      refine ⟨j, hj, ?_⟩
      cases Doc.buffered_of_buffer hj with
      | obj hmembers => exact .directive (eq_ok_of_toOption hread.symm)
      | arr hitems => exact absurd rfl (hlist _)
      | _ =>
        simp only [Directive.ofDoc, Record.read] at hdirective
        exact absurd hdirective Doc.mismatch_ne_ok
    · rintro ⟨j, hj, hdescribes⟩
      cases hdescribes with
      | name name =>
        cases Doc.buffered_of_buffer hj with
        | str => exact absurd ⟨name, rfl⟩ hname
      | directive hread =>
        refine ⟨_, rfl, eq_ok_of_toOption ?_⟩
        rw [Directive.readsBuffered_ofDoc hv hj, hread]
        rfl

/-! ## Trees with one member more -/

variable {before after : List (Except TextFault String × Doc)} {key : String} {j : Json}

theorem bufferMembers_append (done : List (String × Json)) :
    Doc.bufferMembers depth done (before ++ after) =
      Doc.bufferMembers depth done before >>= fun js => Doc.bufferMembers depth js after := by
  induction before generalizing done with
  | nil => rfl
  | cons m before ih =>
    obtain ⟨fault | name, d⟩ := m
    · rfl
    · simp only [List.cons_append, Doc.bufferMembers]
      cases d.buffer depth with
      | error fault => rfl
      | ok j => exact ih (KeyMap.put name j done)

/-- A member can be put in before other members or after them, if none of them has its name. -/
theorem bufferMembers_put (hafter : ∀ m ∈ after, m.1 ≠ .ok key) (done : List (String × Json)) :
    Doc.bufferMembers depth (KeyMap.put key j done) after =
      (Doc.bufferMembers depth done after).map (KeyMap.put key j) := by
  induction after generalizing done with
  | nil => rfl
  | cons m after ih =>
    obtain ⟨fault | name, d⟩ := m
    · rfl
    · rw [List.forall_mem_cons] at hafter
      have hne : key ≠ name := fun heq => hafter.1 (congrArg Except.ok heq.symm)
      simp only [Doc.bufferMembers]
      cases d.buffer depth with
      | error fault => rfl
      | ok j' =>
        have hrest := ih hafter.2 (KeyMap.put name j' done)
        rw [KeyMap.put_comm hne.symm] at hrest
        exact hrest

/-- An object with one member more is read whole as what it was with that member put in. -/
theorem bufferMembers_added (hafter : ∀ m ∈ after, m.1 ≠ .ok key) (hj : v.buffer depth = .ok j) :
    Doc.bufferMembers depth [] (before ++ (.ok key, v) :: after) =
      (Doc.bufferMembers depth [] (before ++ after)).map (KeyMap.put key j) := by
  rw [bufferMembers_append, bufferMembers_append]
  cases Doc.bufferMembers depth [] before with
  | error fault => rfl
  | ok js =>
    change Doc.bufferMembers depth js ((.ok key, v) :: after) = _
    rw [Doc.bufferMembers, hj]
    exact bufferMembers_put hafter js

/-- What an object is read whole as is in the order of its names. -/
theorem exists_keyMap_of_bufferMembers {ms : List (Except TextFault String × Doc)}
    {js : List (String × Json)} (h : Doc.bufferMembers depth [] ms = .ok js) :
    ∃ m : KeyMap Json, m.entries = js := by
  obtain ⟨pairs, _, rfl⟩ := Doc.bufferMembers_forall₂ h
  exact ⟨.ofList pairs, KeyMap.entries_foldl_insert pairs .empty⟩

variable {m : KeyMap Json} {s : Serial}

/-- An entry is no part of the default directive. -/
theorem otherMembers_insert (hkey : isEntryKey key = true) :
    otherMembers (m.insert key j) = otherMembers m :=
  KeyMap.filter_put (p := fun k => !isEntryKey k) (by simp [hkey]) j m.entries

theorem allDescribe_of_ofMembers (h : Serial.ofMembers m.entries = .ok s) : AllDescribe m := by
  obtain ⟨entries, hsplit, _⟩ := ofMembers_eq_ok_iff.1 h
  exact (exists_splitMembers_iff m).1 ⟨entries, hsplit⟩

theorem get?_insert_cases {k : String} {value : Json} (h : (m.insert key j).get? k = some value) :
    k = key ∧ value = j ∨ k ≠ key ∧ m.get? k = some value := by
  by_cases hk : k = key
  · subst hk
    rw [KeyMap.get?_insert_self, Option.some.injEq] at h
    exact .inl ⟨rfl, h.symm⟩
  · rw [m.get?_insert_of_ne j hk] at h
    exact .inr ⟨hk, h⟩

/-- A member that describes an entry is put into the entries of the tree. -/
theorem ofMembers_insert (hkey : isEntryKey key = true)
    (h : Serial.ofMembers m.entries = .ok s) (hj : Describes j e) :
    Serial.ofMembers (m.insert key j).entries = .ok ⟨s.root, s.entries.insert key e⟩ := by
  have hall : AllDescribe (m.insert key j) := by
    intro k value hvalue hk
    rcases get?_insert_cases hvalue with ⟨_, rfl⟩ | ⟨_, hold⟩
    · exact ⟨e, hj⟩
    · exact allDescribe_of_ofMembers h k value hold hk
  obtain ⟨entries, hsplit, hroot, hentries⟩ := ofMembers_eq_ok_iff.1 h
  obtain ⟨entries', hsplit'⟩ := (exists_splitMembers_iff _).2 hall
  refine ofMembers_eq_ok_iff.2 ⟨entries', hsplit', ?_, ?_⟩
  · rw [rootOf, otherMembers_insert hkey]
    exact hroot
  · refine KeyMap.ext_get? fun k => Option.ext fun found => ?_
    rw [get?_ofList_of_splitMembers hsplit']
    by_cases hk : k = key
    · subst hk
      simp only [KeyMap.get?_insert_self, Option.some.injEq, exists_eq_left', hkey, true_and]
      exact ⟨fun heq => heq ▸ hj, fun hfound => hj.unique hfound⟩
    · rw [s.entries.get?_insert_of_ne e hk, m.get?_insert_of_ne j hk, hentries]
      exact get?_ofList_of_splitMembers hsplit

/-- A member that describes no entry is complained about. -/
theorem ofMembers_insert_offends (hkey : isEntryKey key = true)
    (h : Serial.ofMembers m.entries = .ok s) {fault : Fault} (hj : Offends key j fault) :
    Serial.ofMembers (m.insert key j).entries = .error fault := by
  refine ofMembers_eq_error_iff.2 (.inl ⟨key, j, ?_, hkey, hj, fun other hother hlt hentry => ?_⟩)
  · exact KeyMap.get?_eq_some_iff.1 (KeyMap.get?_insert_self _ _ _)
  · rcases get?_insert_cases (KeyMap.get?_eq_some_iff.2 hother) with ⟨heq, _⟩ | ⟨_, hold⟩
    · exact absurd hlt (heq ▸ String.lt_irrefl _)
    · exact allDescribe_of_ofMembers h _ _ hold hentry

/-! ## Both ways -/

/-- A member of an object is put between other members. -/
def withMember (before after : List (Except TextFault String × Doc)) (key : String) (v : Doc) :
    Doc :=
  .obj (before ++ (.ok key, v) :: after) none

/-- A tree with a member more under an entry name is the tree with the entry put in that the value
of the member is read whole as.  If it is none, there is no tree. -/
theorem Serial.ofDoc_withMember (hkey : isEntryKey key = true)
    (hafter : ∀ m ∈ after, m.1 ≠ .ok key)
    (h : Serial.ofDoc depth (.obj (before ++ after) none) = .ok s) (v : Doc) :
    Serial.ofDoc depth (withMember before after key v) =
      v.buffer depth >>= fun j =>
        (Entry.ofMember key j).map fun e => ⟨s.root, s.entries.insert key e⟩ := by
  obtain ⟨js, hjs, hrest⟩ := bind_eq_ok.1 h
  obtain ⟨m, rfl⟩ := exists_keyMap_of_bufferMembers hjs
  have hs : Serial.ofMembers m.entries = .ok s := hrest
  rw [withMember, Serial.ofDoc]
  cases hj : v.buffer depth with
  | error fault =>
    obtain ⟨js, hbefore, _⟩ := bind_eq_ok.1 ((bufferMembers_append []).symm.trans hjs)
    rw [bufferMembers_append, hbefore]
    simp only [Doc.bufferMembers, hj]
    rfl
  | ok j =>
    rw [bufferMembers_added hafter hj, hjs]
    change Serial.ofMembers (m.insert key j).entries = (Entry.ofMember key j).map _
    cases hmember : Entry.ofMember key j with
    | ok e => exact ofMembers_insert hkey hs (ofMember_eq_ok_iff.1 hmember)
    | error fault => exact ofMembers_insert_offends hkey hs (ofMember_eq_error_iff.1 hmember)

/-- A value under an entry name becomes an entry of the tree exactly if it is that entry on its own,
and it is refused exactly if it is none, unless it is a list.  A list is refused in every tree,
since an entry is a name or an object; on its own it is the directive whose fields it gives in their
order.

Two arrays and objects nested in the members of the tree are enough; a tree on its own and a tree in
a table may nest `maxDepth - 1` and `maxDepth - 3`. -/
theorem Serial.ofDoc_added (hv : v.IsValue) (hkey : isEntryKey key = true) (hdepth : 2 ≤ depth)
    (hafter : ∀ m ∈ after, m.1 ≠ .ok key)
    (hs : Serial.ofDoc depth (.obj (before ++ after) none) = .ok s) :
    ((∀ items, v ≠ .arr items none) →
      (∀ e, Entry.ofDoc v = .ok e ↔
        ∃ t, Serial.ofDoc depth (withMember before after key v) = .ok t ∧
          t.entries.get? key = some e) ∧
      (∀ t, Serial.ofDoc depth (withMember before after key v) = .ok t →
        ∃ e, t = ⟨s.root, s.entries.insert key e⟩) ∧
      ((∃ fault, Entry.ofDoc v = .error fault) ↔
        ∃ fault, Serial.ofDoc depth (withMember before after key v) = .error fault)) ∧
    ∀ items, v = .arr items none →
      (∃ fault, Serial.ofDoc depth (withMember before after key v) = .error fault) ∧
      (∀ j, v.buffer depth = .ok j →
        Serial.ofDoc depth (withMember before after key v) = .error (.data (.notDirective key j))) ∧
      ∀ e, Entry.ofDoc v = .ok e ↔
        ∃ directive, e = .concrete directive ∧ Directive.ofDoc .buffered v = .ok directive := by
  have htree := Serial.ofDoc_withMember hkey hafter hs v
  refine ⟨fun hlist => ?_, ?_⟩
  · have hok : ∀ t, Serial.ofDoc depth (withMember before after key v) = .ok t ↔
        ∃ e, Entry.ofDoc v = .ok e ∧ t = ⟨s.root, s.entries.insert key e⟩ := by
      intro t
      simp only [htree, bind_eq_ok, map_eq_ok, Entry.ofDoc_eq_ok_iff hv hlist hdepth,
        ofMember_eq_ok_iff]
      constructor
      · rintro ⟨j, hj, e, he, rfl⟩
        exact ⟨e, ⟨j, hj, he⟩, rfl⟩
      · rintro ⟨e, ⟨j, hj, he⟩, rfl⟩
        exact ⟨j, hj, e, he, rfl⟩
    refine ⟨fun e => ⟨fun he => ?_, ?_⟩, fun t ht => ?_, ?_⟩
    · exact ⟨_, (hok _).2 ⟨e, he, rfl⟩, KeyMap.get?_insert_self _ _ _⟩
    · rintro ⟨t, ht, hget⟩
      obtain ⟨e', he', rfl⟩ := (hok t).1 ht
      rw [KeyMap.get?_insert_self, Option.some.injEq] at hget
      rw [he', hget]
    · obtain ⟨e, _, heq⟩ := (hok t).1 ht
      exact ⟨e, heq⟩
    · rw [exists_eq_error_iff, exists_eq_error_iff]
      refine not_congr ⟨fun ⟨e, he⟩ => ⟨_, (hok _).2 ⟨e, he, rfl⟩⟩, fun ⟨t, ht⟩ => ?_⟩
      obtain ⟨e, he, _⟩ := (hok t).1 ht
      exact ⟨e, he⟩
  · rintro items rfl
    have hrefused : ∀ j, Doc.buffer depth (.arr items none) = .ok j →
        Serial.ofDoc depth (withMember before after key (.arr items none)) =
          .error (.data (.notDirective key j)) := by
      intro j hj
      rw [htree, hj]
      cases Doc.buffered_of_buffer hj with
      | arr => rfl
    refine ⟨?_, hrefused, fun e => Entry.ofDoc_eq_directive hv (by simp)⟩
    cases hj : Doc.buffer depth (.arr items none) with
    | ok j => exact ⟨_, hrefused j hj⟩
    | error fault => exact ⟨fault, by rw [htree, hj]; rfl⟩

/-- A directive whose join method is written as an object, between the members of a tree. -/
theorem Serial.ofDoc_added_choice :
    let before : List (Except TextFault String × Doc) := [(.ok "pattern", .str (.ok "[0-9]+"))]
    let after : List (Except TextFault String × Doc) := [(.ok "serial_1", .str (.ok "serial_2"))]
    let v : Doc := .obj [(.ok "pattern", .str (.ok "[A-Z]+")),
      (.ok "joinMethod", .obj [(.ok "noDelimiter", .null)] none)] none
    let e : Entry := .concrete { pattern := some "[A-Z]+", joinMethod := .concatenated }
    let s : Serial := ⟨{ pattern := some "[0-9]+" }, .ofList [("serial_1", .reference "serial_2")]⟩
    v.IsValue ∧ isEntryKey "serial_2" = true ∧ 2 ≤ maxDepth - 1 ∧
      (∀ m ∈ after, m.1 ≠ .ok "serial_2") ∧
      Serial.ofDoc (maxDepth - 1) (.obj (before ++ after) none) = .ok s ∧
      Entry.ofDoc v = .ok e ∧
      ∃ t, Serial.ofDoc (maxDepth - 1) (withMember before after "serial_2" v) = .ok t ∧
        t.entries.get? "serial_2" = some e := by
  intro before after v e s
  have hv : v.IsValue := by
    refine .obj (by simp [Doc.NamesDiffer]) ?_
    simp only [List.forall_mem_cons, List.not_mem_nil, false_implies, implies_true, and_true]
    exact ⟨.str _, .obj (List.pairwise_singleton _ _) (by simpa using .null)⟩
  have hkey : isEntryKey "serial_2" = true := by decide
  have hafter : ∀ m ∈ after, m.1 ≠ .ok "serial_2" := by simp [after]
  have hs : Serial.ofDoc (maxDepth - 1) (.obj (before ++ after) none) = .ok s := by rfl
  have he : Entry.ofDoc v = .ok e := by rfl
  obtain ⟨hagree, _⟩ := Serial.ofDoc_added hv hkey (by decide : 2 ≤ maxDepth - 1) hafter hs
  exact ⟨hv, hkey, by decide, hafter, hs, he, ((hagree nofun).1 e).1 he⟩

/-- The empty list is the directive without fields on its own, and no entry of a tree. -/
theorem Serial.ofDoc_added_emptyList :
    readText Entry.ofDoc "[]".toList = .ok (.concrete {}) ∧
      readText (Serial.ofDoc (maxDepth - 1)) "{}".toList = .ok ⟨{}, .empty⟩ ∧
      isEntryKey "serial_5" = true ∧
      readText (Serial.ofDoc (maxDepth - 1)) r#"{"serial_5":[]}"#.toList =
        .error (.data (.notDirective "serial_5" (.arr []))) := by
  have hlist : "[]" = (Json.arr []).compact := by decide +kernel
  have hempty : "{}" = (Json.obj []).compact := by decide +kernel
  have htree : r#"{"serial_5":[]}"# = (Json.obj [("serial_5", .arr [])]).compact := by
    decide +kernel
  rw [hlist, hempty, htree]
  refine ⟨?_, ?_, by decide, ?_⟩
  · exact readText_compact Entry.ofDoc (j := .arr []) trivial
  · exact readText_compact (Serial.ofDoc (maxDepth - 1)) (j := .obj []) trivial
  · exact readText_compact (Serial.ofDoc (maxDepth - 1)) (j := .obj [("serial_5", .arr [])])
      ⟨trivial, trivial⟩

end Banknote.Config
