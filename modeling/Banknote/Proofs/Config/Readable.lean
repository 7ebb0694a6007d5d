import Banknote.Config.Reader
import Banknote.Proofs.Json.Reader

/-!
# What holds of every configuration that is read

A configuration that comes from a text has numbers that fit sixty-four bits, and the entries of its
serial trees stand under entry names.  `Readable` says so for each kind of configuration, and
`readable_of_tableOfText` says that every table that is read is `Readable`.
-/

namespace Banknote.Config

open Json

/-! ## Configurations that can be read -/

/-- The capture group is a number that can be read. -/
def Directive.Readable (d : Directive) : Prop := d.captureGroup ≤ maxSignificand

/-- A directive of its own can be read. -/
def Entry.Readable : Entry → Prop
  | .reference _ => True
  | .concrete d => d.Readable

/-- All directives can be read, and the entries stand under entry names. -/
structure Serial.Readable (s : Serial) : Prop where
  root : s.root.Readable
  entry : ∀ e ∈ s.entries.entries, e.2.Readable
  entryKey : ∀ e ∈ s.entries.entries, isEntryKey e.1 = true

/-- The depth of the vocabulary is a number that can be read. -/
def Denomination.Readable (d : Denomination) : Prop :=
  ∀ f, d.fuzzy = some f → f.depth ≤ maxSignificand

/-- All parts can be read. -/
structure Currency.Readable (c : Currency) : Prop where
  denomination : ∀ e ∈ c.denominations.entries, e.2.Readable
  serial : ∀ s, c.serial = some s → s.Readable

/-- All currencies can be read. -/
def TableReadable (t : Table) : Prop := ∀ e ∈ t.entries, e.2.Readable

/-! ## What is read -/

theorem Fuzzy.depth_le {d : Doc} {f : Fuzzy} (h : Fuzzy.ofDoc d = .ok f) :
    f.depth ≤ maxSignificand := by
  have hset : ∀ (draft : FuzzyDraft) (field : String) (d : Doc) (draft' : FuzzyDraft),
      (∀ n, draft.depth = some n → n ≤ maxSignificand) →
      fuzzyRecord.set draft field d = .ok draft' →
      ∀ n, draft'.depth = some n → n ≤ maxSignificand := by
    intro draft field d draft' hdraft hread n hn
    simp only [fuzzyRecord] at hread
    split at hread
    · obtain ⟨v, _, rfl⟩ := map_eq_ok.1 hread
      exact hdraft n hn
    · obtain ⟨v, hv, rfl⟩ := map_eq_ok.1 hread
      cases hn
      exact Doc.natural_ok hv
  obtain ⟨form, draft, hdraft, hfinish⟩ := fuzzyRecord.read_ok (by simp) hset h
  obtain ⟨vocabulary, _, hrest⟩ := bind_eq_ok.1 hfinish
  obtain ⟨depth, hdepth, hf⟩ := bind_eq_ok.1 hrest
  cases hf
  rw [Record.require.eq_def] at hdepth
  split at hdepth
  · rename_i n hn
    cases hdepth
    exact hdraft _ hn
  · split at hdepth <;> cases hdepth

theorem Denomination.readable_ofDoc (d : Doc) (c : Denomination)
    (h : Denomination.ofDoc d = .ok c) : c.Readable := by
  have hset : ∀ (draft : Denomination) (field : String) (d : Doc) (draft' : Denomination),
      draft.Readable → denominationRecord.set draft field d = .ok draft' → draft'.Readable := by
    intro draft field d draft' hdraft hread
    simp only [denominationRecord] at hread
    split at hread
    all_goals obtain ⟨v, hv, rfl⟩ := map_eq_ok.1 hread
    case h_4 =>
      intro f hf
      cases hf
      exact Fuzzy.depth_le (Doc.option_ok hv)
    all_goals exact hdraft
  obtain ⟨form, draft, hdraft, hfinish⟩ :=
    denominationRecord.read_ok (P := Denomination.Readable) (by simp [Denomination.Readable]) hset h
  cases hfinish
  exact hdraft

theorem Directive.readable_ofDoc {source : Source} {d : Doc} {c : Directive}
    (h : Directive.ofDoc source d = .ok c) : c.Readable := by
  have hset : ∀ (draft : Directive) (field : String) (d : Doc) (draft' : Directive),
      draft.Readable → (directiveRecord source).set draft field d = .ok draft' →
      draft'.Readable := by
    intro draft field d draft' hdraft hread
    simp only [directiveRecord] at hread
    split at hread
    all_goals obtain ⟨v, hv, rfl⟩ := map_eq_ok.1 hread
    case h_4 => exact Doc.natural_ok hv
    all_goals exact hdraft
  obtain ⟨form, draft, hdraft, hfinish⟩ :=
    (directiveRecord source).read_ok (P := Directive.Readable) (Nat.zero_le _) hset h
  cases hfinish
  exact hdraft

theorem Entry.readable_ofMember {key : String} {j : Json} {e : Entry}
    (h : Entry.ofMember key j = .ok e) : e.Readable := by
  rw [Entry.ofMember.eq_def] at h
  split at h
  · cases h
    trivial
  · split at h
    · rename_i hread
      cases h
      exact Directive.readable_ofDoc hread
    · cases h
  · cases h

/-- The entries that are split off stand under entry names and can be read. -/
theorem splitMembers_ok {members : List (String × Json)} {entries : List (String × Entry)}
    {rest : List (String × Json)} (h : splitMembers members = .ok (entries, rest)) :
    ∀ e ∈ entries, isEntryKey e.1 = true ∧ e.2.Readable := by
  induction members generalizing entries rest with
  | nil =>
    cases h
    simp
  | cons m members ih =>
    obtain ⟨key, value⟩ := m
    rw [splitMembers] at h
    split at h
    · rename_i hkey
      obtain ⟨entry, hentry, h⟩ := bind_eq_ok.1 h
      obtain ⟨⟨entries', rest'⟩, hsplit, h⟩ := bind_eq_ok.1 h
      cases h
      rw [List.forall_mem_cons]
      exact ⟨⟨hkey, Entry.readable_ofMember hentry⟩, ih hsplit⟩
    · obtain ⟨⟨entries', rest'⟩, hsplit, h⟩ := bind_eq_ok.1 h
      cases h
      exact ih hsplit

theorem Serial.readable_ofDoc {depth : Nat} {d : Doc} {s : Serial}
    (h : Serial.ofDoc depth d = .ok s) : s.Readable := by
  rw [Serial.ofDoc.eq_def] at h
  split at h
  · obtain ⟨members, _, h⟩ := bind_eq_ok.1 h
    obtain ⟨_, _, h⟩ := bind_eq_ok.1 h
    obtain ⟨⟨entries, rest⟩, hsplit, h⟩ := bind_eq_ok.1 h
    have hentries := splitMembers_ok hsplit
    simp only at h
    split at h
    · rename_i root hroot
      cases h
      exact ⟨Directive.readable_ofDoc hroot,
        fun e he => (hentries e (KeyMap.mem_entries_ofList he)).2,
        fun e he => (hentries e (KeyMap.mem_entries_ofList he)).1⟩
    · cases h
  · exact absurd h Doc.mismatch_ne_ok

theorem Currency.readable_ofDoc (d : Doc) (c : Currency) (h : Currency.ofDoc d = .ok c) :
    c.Readable := by
  have hset : ∀ (draft : Currency) (field : String) (d : Doc) (draft' : Currency),
      draft.Readable → currencyRecord.set draft field d = .ok draft' → draft'.Readable := by
    intro draft field d draft' hdraft hread
    simp only [currencyRecord] at hread
    split at hread
    all_goals obtain ⟨v, hv, rfl⟩ := map_eq_ok.1 hread
    case h_3 => exact ⟨Doc.map_ok Denomination.readable_ofDoc hv, hdraft.serial⟩
    case h_4 =>
      refine ⟨hdraft.denomination, fun s hs => ?_⟩
      cases hs
      exact Serial.readable_ofDoc (Doc.option_ok hv)
    all_goals exact ⟨hdraft.denomination, hdraft.serial⟩
  have hempty : Currency.Readable {} := ⟨by simp [KeyMap.empty], by simp⟩
  obtain ⟨form, draft, hdraft, hfinish⟩ := currencyRecord.read_ok hempty hset h
  cases hfinish
  exact hdraft

/-- Every table that is read from a text can be read. -/
theorem readable_of_tableOfText {text : String} {t : Table} (h : tableOfText text = .ok t) :
    TableReadable t := by
  obtain ⟨t', ht, hend⟩ := bind_eq_ok.1 h
  have hread := Doc.map_ok Currency.readable_ofDoc ht
  split at hend
  · cases hend
  · split at hend
    · cases hend
      exact hread
    · cases hend

end Banknote.Config
