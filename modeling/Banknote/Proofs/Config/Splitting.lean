import Banknote.Config.Reader
import Banknote.Proofs.Json.Reader
import Mathlib.Data.List.Forall2

/-!
# How the members of a serial tree are split

A serial tree is one object.  A member under an entry name is an entry, and the other members are
together the default directive.

* Entries.  `Describes` says which entry a value describes, and `Offends` which fault it is if it
  describes none.
* Members.  `splitMembers_eq_error_iff`: the first member that offends is the one that is complained
  about.  `splitMembers_eq_ok_iff`: if none does, the members under entry names become entries, and
  the others are left in their order.
* Trees.  `Serial.ofMembers_splits` says when a tree is read, what it holds, and what is complained
  about otherwise.
-/

namespace Banknote.Config

open Json

/-! ## Entries -/

/-- A value describes an entry: a text is the name of another entry, and an object a directive. -/
inductive Describes : Json → Entry → Prop
  | name (name : String) : Describes (.str name) (.reference name)
  | directive {members : List (String × Json)} {directive : Directive}
    (hread : Directive.ofDoc .buffered (toDoc (.obj members)) = .ok directive) :
    Describes (.obj members) (.concrete directive)

/-- A value that stands under a key and describes no entry, and the complaint about it. -/
inductive Offends (key : String) : Json → Fault → Prop
  | shape {value : Json} (hname : ∀ name, value ≠ .str name)
    (hobject : ∀ members, value ≠ .obj members) :
    Offends key value (.data (.notDirective key value))
  | directive {members : List (String × Json)} {fault : Fault}
    (hread : Directive.ofDoc .buffered (toDoc (.obj members)) = .error fault) :
    Offends key (.obj members) (locate (.inDirective key) fault)

theorem ofMember_eq_ok_iff {key : String} {value : Json} {e : Entry} :
    Entry.ofMember key value = .ok e ↔ Describes value e := by
  constructor
  · intro h
    cases value with
    | str name =>
      cases h
      exact .name name
    | obj members =>
      rw [Entry.ofMember] at h
      split at h
      · rename_i hread
        cases h
        exact .directive hread
      · cases h
    | null | bool | num | arr => cases h
  · intro h
    cases h with
    | name => rfl
    | directive hread => rw [Entry.ofMember, hread]

theorem ofMember_eq_error_iff {key : String} {value : Json} {fault : Fault} :
    Entry.ofMember key value = .error fault ↔ Offends key value fault := by
  constructor
  · intro h
    cases value with
    | str name => cases h
    | obj members =>
      rw [Entry.ofMember] at h
      split at h
      · cases h
      · rename_i hread
        cases h
        exact .directive hread
    | null | bool | num | arr =>
      cases h
      exact .shape (by simp) (by simp)
  · intro h
    cases h with
    | shape hname hobject =>
      cases value with
      | str name => exact absurd rfl (hname name)
      | obj members => exact absurd rfl (hobject members)
      | null | bool | num | arr => rfl
    | directive hread => rw [Entry.ofMember, hread]

/-- No value describes an entry and offends. -/
theorem Describes.not_offends {value : Json} {e : Entry} (h : Describes value e) {key : String}
    {fault : Fault} : ¬ Offends key value fault := by
  intro hoffends
  have hread : Entry.ofMember key value = .ok e := ofMember_eq_ok_iff.2 h
  cases hread.symm.trans (ofMember_eq_error_iff.2 hoffends)

/-! ## Members -/

variable {l : List (String × Json)} {entries : List (String × Entry)} {rest : List (String × Json)}

theorem splitMembers_eq_ok_iff :
    splitMembers l = .ok (entries, rest) ↔
      List.Forall₂ (fun m e => m.1 = e.1 ∧ Describes m.2 e.2) (l.filter fun m => isEntryKey m.1)
          entries ∧
        rest = l.filter fun m => !isEntryKey m.1 := by
  induction l generalizing entries rest with
  | nil =>
    simp only [splitMembers, List.filter_nil, List.forall₂_nil_left_iff, Except.ok.injEq,
      Prod.mk.injEq]
    exact and_congr eq_comm eq_comm
  | cons m l ih =>
    obtain ⟨key, value⟩ := m
    rw [splitMembers]
    cases hkey : isEntryKey key with
    | true =>
      simp only [if_true, bind_eq_ok, ofMember_eq_ok_iff, hkey, List.filter_cons, Bool.not_true,
        Bool.false_eq_true, if_false, List.forall₂_cons_left_iff]
      constructor
      · rintro ⟨e, he, ⟨entries', rest'⟩, hsplit, h⟩
        cases h
        obtain ⟨hentries, hrest⟩ := ih.1 hsplit
        exact ⟨⟨_, _, ⟨rfl, he⟩, hentries, rfl⟩, hrest⟩
      · rintro ⟨⟨⟨_, e⟩, entries', ⟨rfl, he⟩, hentries, rfl⟩, hrest⟩
        exact ⟨e, he, _, ih.2 ⟨hentries, hrest⟩, rfl⟩
    | false =>
      simp only [if_false, bind_eq_ok, hkey, List.filter_cons, Bool.not_false, if_true,
        Bool.false_eq_true]
      constructor
      · rintro ⟨⟨entries', rest'⟩, hsplit, h⟩
        cases h
        obtain ⟨hentries, hrest⟩ := ih.1 hsplit
        exact ⟨hentries, by rw [hrest]⟩
      · rintro ⟨hentries, rfl⟩
        exact ⟨_, ih.2 ⟨hentries, rfl⟩, rfl⟩

/-- A member under an entry name offends, and all such members before it, in the order of the keys,
describe entries. -/
def FirstOffends (l : List (String × Json)) (fault : Fault) : Prop :=
  ∃ key value, (key, value) ∈ l ∧ isEntryKey key = true ∧ Offends key value fault ∧
    ∀ m ∈ l, m.1 < key → isEntryKey m.1 = true → ∃ e, Describes m.2 e

/-- A member in front that does not offend can be passed over. -/
theorem firstOffends_cons_iff {m : String × Json} (hm : ∀ m' ∈ l, m.1 < m'.1)
    (hgood : isEntryKey m.1 = true → ∃ e, Describes m.2 e) {fault : Fault} :
    FirstOffends (m :: l) fault ↔ FirstOffends l fault := by
  constructor
  · rintro ⟨key, value, hmem, hkey, hoffends, hbefore⟩
    rcases List.mem_cons.1 hmem with rfl | hmem
    · obtain ⟨e, he⟩ := hgood hkey
      exact absurd hoffends he.not_offends
    · exact ⟨key, value, hmem, hkey, hoffends,
        fun m' hm' => hbefore m' (List.mem_cons_of_mem _ hm')⟩
  · rintro ⟨key, value, hmem, hkey, hoffends, hbefore⟩
    refine ⟨key, value, List.mem_cons_of_mem _ hmem, hkey, hoffends, fun m' hm' hlt hentry => ?_⟩
    rcases List.mem_cons.1 hm' with rfl | hm'
    · exact hgood hentry
    · exact hbefore m' hm' hlt hentry

/-- The member that is complained about is the first one that offends. -/
theorem splitMembers_eq_error_iff (hl : (l.map Prod.fst).Pairwise (· < ·)) {fault : Fault} :
    splitMembers l = .error fault ↔ FirstOffends l fault := by
  induction l with
  | nil =>
    constructor
    · intro h
      cases h
    · rintro ⟨key, value, hmem, _⟩
      cases hmem
  | cons m l ih =>
    obtain ⟨first, value⟩ := m
    rw [List.map_cons, List.pairwise_cons] at hl
    have hlater : ∀ m ∈ l, first < m.1 := fun m hm => hl.1 m.1 (List.mem_map_of_mem hm)
    have ih := ih hl.2
    rw [splitMembers]
    split
    · rename_i hfirst
      rw [bind_eq_error]
      cases hmember : Entry.ofMember first value with
      | error fault' =>
        have hoffends := ofMember_eq_error_iff.1 hmember
        constructor
        · rintro (h | ⟨_, h, _⟩)
          · cases h
            refine ⟨first, value, List.mem_cons_self, hfirst, hoffends, fun m hm hlt => ?_⟩
            rcases List.mem_cons.1 hm with rfl | hm
            · exact absurd hlt (String.lt_irrefl first)
            · exact absurd hlt (String.lt_asymm (hlater m hm))
          · cases h
        · rintro ⟨key, value', hmem, _, hoffends', hbefore⟩
          rcases List.mem_cons.1 hmem with heq | hmem
          · cases heq
            exact .inl (hmember.symm.trans (ofMember_eq_error_iff.2 hoffends'))
          · obtain ⟨e, he⟩ := hbefore _ List.mem_cons_self (hlater _ hmem) hfirst
            exact absurd hoffends he.not_offends
      | ok e =>
        have he : Describes value e := ofMember_eq_ok_iff.1 hmember
        rw [firstOffends_cons_iff hlater fun _ => ⟨e, he⟩, ← ih]
        constructor
        · rintro (h | ⟨_, _, h⟩)
          · cases h
          · rcases bind_eq_error.1 h with h | ⟨_, _, h⟩
            · exact h
            · cases h
        · exact fun h => .inr ⟨e, rfl, bind_eq_error.2 (.inl h)⟩
    · rename_i hfirst
      rw [firstOffends_cons_iff hlater fun h => absurd h hfirst, ← ih, bind_eq_error]
      constructor
      · rintro (h | ⟨_, _, h⟩)
        · exact h
        · cases h
      · exact .inl

/-! ## Trees -/

/-- The members that are no entries. -/
def otherMembers (m : KeyMap Json) : List (String × Json) :=
  m.entries.filter fun e => !isEntryKey e.1

/-- Every value under an entry name describes an entry. -/
def AllDescribe (m : KeyMap Json) : Prop :=
  ∀ key value, m.get? key = some value → isEntryKey key = true → ∃ e, Describes value e

/-- What the members that are no entries are read as, together. -/
def rootOf (m : KeyMap Json) : Except Fault Directive :=
  Directive.ofDoc .buffered (toDoc (.obj (otherMembers m)))

/-- A value describes at most one entry. -/
theorem Describes.unique {value : Json} {e e' : Entry} (h : Describes value e)
    (h' : Describes value e') : e = e' := by
  have hread : Entry.ofMember "" value = .ok e := ofMember_eq_ok_iff.2 h
  exact Except.ok.inj (hread.symm.trans (ofMember_eq_ok_iff.2 h'))

theorem mem_iff_of_forall₂
    (h : List.Forall₂ (fun m e => m.1 = e.1 ∧ Describes m.2 e.2) l entries) {key : String}
    {e : Entry} : (key, e) ∈ entries ↔ ∃ value, (key, value) ∈ l ∧ Describes value e := by
  induction h with
  | nil => simp
  | @cons m first l entries hfirst _ ih =>
    obtain ⟨hkey, hdescribes⟩ := hfirst
    rw [List.mem_cons, ih]
    constructor
    · rintro (rfl | ⟨value, hvalue, he⟩)
      · obtain rfl : m.1 = key := hkey
        exact ⟨m.2, List.mem_cons_self, hdescribes⟩
      · exact ⟨value, List.mem_cons_of_mem _ hvalue, he⟩
    · rintro ⟨value, hvalue, he⟩
      rcases List.mem_cons.1 hvalue with rfl | hvalue
      · exact .inl (Prod.ext hkey (he.unique hdescribes))
      · exact .inr ⟨value, hvalue, he⟩

theorem exists_of_forall₂ (h : List.Forall₂ (fun m e => m.1 = e.1 ∧ Describes m.2 e.2) l entries)
    {m : String × Json} (hm : m ∈ l) : ∃ e, Describes m.2 e := by
  induction h with
  | nil => cases hm
  | cons hfirst _ ih =>
    rcases List.mem_cons.1 hm with rfl | hm
    · exact ⟨_, hfirst.2⟩
    · exact ih hm

theorem keys_eq_of_forall₂
    (h : List.Forall₂ (fun m e => m.1 = e.1 ∧ Describes m.2 e.2) l entries) :
    entries.map Prod.fst = l.map Prod.fst := by
  induction h with
  | nil => rfl
  | cons hfirst _ ih => rw [List.map_cons, List.map_cons, ih, hfirst.1]

/-- The entries of a tree are the members under entry names. -/
theorem get?_ofList_of_splitMembers {m : KeyMap Json}
    (h : splitMembers m.entries = .ok (entries, rest)) {key : String} {e : Entry} :
    (KeyMap.ofList entries).get? key = some e ↔
      isEntryKey key = true ∧ ∃ value, m.get? key = some value ∧ Describes value e := by
  have hall := (splitMembers_eq_ok_iff.1 h).1
  have hascending : (entries.map Prod.fst).Pairwise (· < ·) := by
    rw [keys_eq_of_forall₂ hall]
    exact m.ascending.sublist (List.filter_sublist.map _)
  have hentries : (KeyMap.ofList entries).entries = entries :=
    (KeyMap.entries_foldl_insert entries .empty).trans (KeyMap.foldl_put_eq_self hascending)
  rw [KeyMap.get?_eq_some_iff, hentries, mem_iff_of_forall₂ hall]
  simp only [List.mem_filter, KeyMap.get?_eq_some_iff]
  constructor
  · rintro ⟨value, ⟨hvalue, hkey⟩, he⟩
    exact ⟨hkey, value, hvalue, he⟩
  · rintro ⟨hkey, value, hvalue, he⟩
    exact ⟨value, ⟨hvalue, hkey⟩, he⟩

/-- Members are split when every value under an entry name describes an entry. -/
theorem exists_splitMembers_iff (m : KeyMap Json) :
    (∃ entries, splitMembers m.entries = .ok (entries, otherMembers m)) ↔ AllDescribe m := by
  constructor
  · rintro ⟨entries, h⟩ key value hvalue hkey
    have hmem : (key, value) ∈ m.entries.filter fun m => isEntryKey m.1 :=
      List.mem_filter.2 ⟨KeyMap.get?_eq_some_iff.1 hvalue, hkey⟩
    exact exists_of_forall₂ (splitMembers_eq_ok_iff.1 h).1 hmem
  · intro h
    cases hsplit : splitMembers m.entries with
    | ok s =>
      obtain ⟨entries, rest⟩ := s
      obtain rfl := (splitMembers_eq_ok_iff.1 hsplit).2
      exact ⟨entries, rfl⟩
    | error fault =>
      obtain ⟨key, value, hvalue, hkey, hoffends, _⟩ :=
        (splitMembers_eq_error_iff m.ascending).1 hsplit
      obtain ⟨e, he⟩ := h key value (KeyMap.get?_eq_some_iff.2 hvalue) hkey
      exact absurd hoffends he.not_offends

theorem ofMembers_eq_ok_iff {m : KeyMap Json} {s : Serial} :
    Serial.ofMembers m.entries = .ok s ↔
      ∃ entries, splitMembers m.entries = .ok (entries, otherMembers m) ∧
        rootOf m = .ok s.root ∧ s.entries = .ofList entries := by
  rw [Serial.ofMembers, bind_eq_ok]
  constructor
  · rintro ⟨⟨entries, rest⟩, hsplit, h⟩
    obtain rfl := (splitMembers_eq_ok_iff.1 hsplit).2
    dsimp only at h
    split at h
    · rename_i root hroot
      cases h
      exact ⟨entries, hsplit, hroot, rfl⟩
    · cases h
  · rintro ⟨entries, hsplit, hroot, hentries⟩
    refine ⟨_, hsplit, ?_⟩
    obtain ⟨root, tree⟩ := s
    rw [rootOf] at hroot
    dsimp only at hroot hentries ⊢
    rw [otherMembers] at hroot
    rw [otherMembers, hroot, hentries]
    rfl

theorem ofMembers_eq_error_iff {m : KeyMap Json} {fault : Fault} :
    Serial.ofMembers m.entries = .error fault ↔
      FirstOffends m.entries fault ∨
        AllDescribe m ∧ ∃ f, rootOf m = .error f ∧ fault = locate .inDefaultDirective f := by
  rw [Serial.ofMembers, bind_eq_error, splitMembers_eq_error_iff m.ascending,
    ← exists_splitMembers_iff]
  refine or_congr_right ⟨?_, ?_⟩
  · rintro ⟨⟨entries, rest⟩, hsplit, h⟩
    obtain rfl := (splitMembers_eq_ok_iff.1 hsplit).2
    refine ⟨⟨entries, hsplit⟩, ?_⟩
    dsimp only at h
    split at h
    · cases h
    · rename_i f hroot
      cases h
      exact ⟨f, hroot, rfl⟩
  · rintro ⟨⟨entries, hsplit⟩, f, hroot, rfl⟩
    refine ⟨_, hsplit, ?_⟩
    rw [rootOf] at hroot
    dsimp only
    rw [hroot]
    rfl

/-- An object is read as a serial tree exactly when every value under an entry name is a text or
reads as a directive, and so do the other members together.  The tree then has exactly the entries
that the members under entry names describe, and the other members are its default directive.
Otherwise the complaint is about the first member under an entry name that describes none, and about
the default directive only if there is no such member. -/
theorem Serial.ofMembers_splits (m : KeyMap Json) :
    ((∃ s, Serial.ofMembers m.entries = .ok s) ↔ AllDescribe m ∧ ∃ root, rootOf m = .ok root) ∧
      (∀ s, Serial.ofMembers m.entries = .ok s →
        rootOf m = .ok s.root ∧
          ∀ key e, s.entries.get? key = some e ↔
            isEntryKey key = true ∧ ∃ value, m.get? key = some value ∧ Describes value e) ∧
      (∀ fault, Serial.ofMembers m.entries = .error fault ↔
        FirstOffends m.entries fault ∨
          AllDescribe m ∧ ∃ f, rootOf m = .error f ∧ fault = locate .inDefaultDirective f) ∧
      ∀ depth members, Doc.bufferMembers depth [] members = .ok m.entries →
        Serial.ofDoc depth (.obj members none) = Serial.ofMembers m.entries := by
  refine ⟨⟨?_, ?_⟩, ?_, fun fault => ofMembers_eq_error_iff, ?_⟩
  · rintro ⟨s, hs⟩
    obtain ⟨entries, hsplit, hroot, _⟩ := ofMembers_eq_ok_iff.1 hs
    exact ⟨(exists_splitMembers_iff m).1 ⟨entries, hsplit⟩, s.root, hroot⟩
  · rintro ⟨hall, root, hroot⟩
    obtain ⟨entries, hsplit⟩ := (exists_splitMembers_iff m).2 hall
    exact ⟨⟨root, .ofList entries⟩, ofMembers_eq_ok_iff.2 ⟨entries, hsplit, hroot, rfl⟩⟩
  · intro s hs
    obtain ⟨entries, hsplit, hroot, hentries⟩ := ofMembers_eq_ok_iff.1 hs
    refine ⟨hroot, fun key e => ?_⟩
    rw [hentries]
    exact get?_ofList_of_splitMembers hsplit
  · intro depth members hbuffer
    rw [Serial.ofDoc, hbuffer]
    rfl

/-- An entry that is a name, an entry that is a directive, and a default directive whose members
stand before and after them. -/
theorem Serial.ofMembers_splits_mixed :
    let m : KeyMap Json := .ofList [("pattern", .str "[0-9]+"), ("serial_1", .str "serial_2"),
      ("serial_2", .obj [("pattern", .str "[A-Z]+")]), ("tokensToRemove", .arr [.str "-"])]
    let s : Serial := ⟨{ pattern := some "[0-9]+", tokensToRemove := ["-"] },
      .ofList [("serial_1", .reference "serial_2"),
        ("serial_2", .concrete { pattern := some "[A-Z]+" })]⟩
    Serial.ofMembers m.entries = .ok s ∧
      s.entries.get? "serial_1" = some (.reference "serial_2") ∧
      Doc.bufferMembers 8 [] (toDocMembers m.entries) = .ok m.entries ∧
      Serial.ofDoc 8 (.obj (toDocMembers m.entries) none) = .ok s ∧
      (∃ value, m.get? "serial_1" = some value ∧ Describes value (.reference "serial_2")) := by
  intro m s
  have hs : Serial.ofMembers m.entries = .ok s := by rfl
  have hbuffer : Doc.bufferMembers 8 [] (toDocMembers m.entries) = .ok m.entries := by rfl
  obtain ⟨_, hok, _, hdoc⟩ := Serial.ofMembers_splits m
  exact ⟨hs, rfl, hbuffer, (hdoc 8 _ hbuffer).trans hs, (((hok s hs).2 _ _).1 rfl).2⟩

end Banknote.Config
