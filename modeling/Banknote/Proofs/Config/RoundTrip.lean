import Banknote.Config.Writer
import Banknote.Proofs.Config.Readable

/-!
# Configurations are read back as they are written

`tableOfDoc_toJson` says that the document of a written table is read as that table.

Each kind of record has a function `part`: the record with the fields in a list, and without the
others.  Reading one written field adds it to the list, whatever was read before, so the fields may
come in any order; a field that is not written is absent, so the part with all written fields is the
record (`Record.read_written`).

A serial tree is one object whose members are in key order.  `splitMembers_toTree` takes it apart
again into the entries, in key order, and the members of the default directive, in key order.
-/

namespace Banknote.Config

open Json

/-! ## Members that may be left out -/

theorem mem_optionalMember {key : String} {o : Option Json} {m : String × Json} :
    m ∈ optionalMember key o ↔ ∃ j, o = some j ∧ m = (key, j) := by
  cases o <;> simp [optionalMember]

theorem mem_stringsMember {key : String} {items : List String} {m : String × Json} :
    m ∈ stringsMember key items ↔ items ≠ [] ∧ m = (key, .strings items) := by
  cases items <;> simp [stringsMember]

theorem keys_optionalMember_sublist (key : String) (o : Option Json) :
    ((optionalMember key o).map Prod.fst).Sublist [key] := by
  cases o <;> simp [optionalMember]

theorem keys_stringsMember_sublist (key : String) (items : List String) :
    ((stringsMember key items).map Prod.fst).Sublist [key] := by
  cases items <;> simp [stringsMember]

/-- A field whose members were all read was read, or else there is nothing to read. -/
theorem mem_or_eq_none {α : Type} {key : String} {write : α → Json} {o : Option α}
    {seen : List String} (h : ∀ m ∈ optionalMember key (o.map write), m.1 ∈ seen) :
    key ∈ seen ∨ o = none := by
  cases o with
  | none => exact .inr rfl
  | some a => exact .inl (h (key, write a) (by simp [optionalMember]))

theorem mem_or_eq_nil {key : String} {items : List String} {seen : List String}
    (h : ∀ m ∈ stringsMember key items, m.1 ∈ seen) : key ∈ seen ∨ items = [] := by
  by_cases hitems : items = []
  · exact .inr hitems
  · exact .inl (h (key, .strings items) (mem_stringsMember.2 ⟨hitems, rfl⟩))

/-! ## Words for choices -/

theorem choice_joinMethodName (source : Source) (m : JoinMethod) :
    Doc.choice source joinMethods (toDoc (.str (joinMethodName m))) = .ok m := by
  cases m <;> rfl

theorem choice_directionName (source : Source) (d : Pattern.Direction) :
    Doc.choice source directions (toDoc (.str (directionName d))) = .ok d := by
  cases d <;> rfl

theorem strings_toDoc (items : List String) : strings (toDoc (.strings items)) = .ok items :=
  Doc.list_text_strings items

/-! ## Vocabularies -/

/-- A vocabulary with some of its fields. -/
def Fuzzy.part (f : Fuzzy) (seen : List String) : FuzzyDraft where
  vocabulary := given seen "vocabulary" (some f.vocabulary) none
  depth := given seen "depth" (some f.depth) none

theorem Fuzzy.part_nil (f : Fuzzy) : f.part [] = {} := rfl

theorem Fuzzy.ofDoc_toJson {f : Fuzzy} (h : f.depth ≤ maxSignificand) :
    Fuzzy.ofDoc (toDoc f.toJson) = .ok f := by
  have hset : ∀ m ∈ [("vocabulary", Json.strings f.vocabulary), ("depth", Json.nat f.depth)],
      ∀ seen, fuzzyRecord.set (f.part seen) m.1 (toDoc m.2) = .ok (f.part (m.1 :: seen)) := by
    intro m hm seen
    simp only [List.mem_cons, List.not_mem_nil, or_false] at hm
    rcases hm with rfl | rfl
    · simp [fuzzyRecord, Fuzzy.part, given, strings_toDoc, Except.map]
    · simp [fuzzyRecord, Fuzzy.part, given, Doc.natural_nat h, Except.map]
  rw [Fuzzy.toJson, Fuzzy.ofDoc, fuzzyRecord.read_toDoc f.part f.part_nil
    (by simp [fuzzyRecord]) hset (by simp)]
  rfl

/-! ## Directives -/

/-- The keys of a written directive are fields, in their order. -/
theorem Directive.keys_members_sublist (source : Source) (d : Directive) :
    (d.members.map Prod.fst).Sublist (directiveRecord source).fields := by
  simp only [Directive.members, List.map_append]
  exact (((((keys_optionalMember_sublist _ _).append (keys_optionalMember_sublist _ _)).append
    (List.Sublist.refl _)).append (keys_stringsMember_sublist _ _)).append
      (List.Sublist.refl _)).append (keys_stringsMember_sublist _ _)

theorem Directive.nodup_members (d : Directive) : (d.members.map Prod.fst).Nodup :=
  (d.keys_members_sublist .buffered).nodup (by decide)

/-- A directive with some of its fields. -/
def Directive.part (d : Directive) (seen : List String) : Directive where
  pattern := given seen "pattern" d.pattern none
  dualPattern := given seen "dualPattern" d.dualPattern none
  direction := given seen "direction" d.direction .leftToRight
  captureGroup := given seen "captureGroup" d.captureGroup 0
  joinMethod := given seen "joinMethod" d.joinMethod .perToken
  tokensToRemove := given seen "tokensToRemove" d.tokensToRemove []
  resultFilters := given seen "resultFilters" d.resultFilters []
  matchFilters := given seen "matchFilters" d.matchFilters []

theorem Directive.part_nil (d : Directive) : d.part [] = {} := rfl

/-- Reading a written field adds it to the part. -/
theorem Directive.set_part (source : Source) {d : Directive} (h : d.Readable)
    {m : String × Json} (hm : m ∈ d.members) (seen : List String) :
    (directiveRecord source).set (d.part seen) m.1 (toDoc m.2) = .ok (d.part (m.1 :: seen)) := by
  simp only [Directive.members, List.mem_append, List.mem_cons, List.not_mem_nil, or_false,
    mem_optionalMember, mem_stringsMember, Option.map_eq_some_iff] at hm
  rcases hm with ((((⟨j, ⟨p, hp, rfl⟩, rfl⟩ | ⟨j, ⟨p, hp, rfl⟩, rfl⟩) | rfl | rfl | rfl) |
    ⟨_, rfl⟩) | rfl) | ⟨_, rfl⟩
  · have hread := Doc.option_of_ne_null (by simp) (Doc.text_str p)
    simp [directiveRecord, Directive.part, given, hread, hp, Except.map]
  · have hread := Doc.option_of_ne_null (by simp) (Doc.text_str p)
    simp [directiveRecord, Directive.part, given, hread, hp, Except.map]
  · simp [directiveRecord, Directive.part, given, choice_directionName, Except.map]
  · simp [directiveRecord, Directive.part, given, Doc.natural_nat h, Except.map]
  · simp [directiveRecord, Directive.part, given, choice_joinMethodName, Except.map]
  · simp [directiveRecord, Directive.part, given, strings_toDoc, Except.map]
  · simp [directiveRecord, Directive.part, given, strings_toDoc, Except.map]
  · simp [directiveRecord, Directive.part, given, strings_toDoc, Except.map]

/-- The part with all written fields is the directive: the others are absent. -/
theorem Directive.part_eq_self {d : Directive} {seen : List String}
    (h : ∀ m ∈ d.members, m.1 ∈ seen) : d.part seen = d := by
  simp only [Directive.members, List.mem_append, or_imp, forall_and, List.forall_mem_cons] at h
  obtain ⟨⟨⟨⟨⟨hpattern, hdual⟩, hdirection, hgroup, hjoin, _⟩, hremove⟩, hresult, _⟩, hmatch⟩ := h
  simp only [Directive.part]
  rw [given_eq_value (mem_or_eq_none hpattern), given_eq_value (mem_or_eq_none hdual),
    given_eq_value (.inl hdirection), given_eq_value (.inl hgroup), given_eq_value (.inl hjoin),
    given_eq_value (mem_or_eq_nil hremove), given_eq_value (.inl hresult),
    given_eq_value (mem_or_eq_nil hmatch)]

/-- A directive is read from its members in any order. -/
theorem Directive.ofDoc_members (source : Source) {d : Directive} (h : d.Readable)
    {members : List (String × Json)} (hperm : members.Perm d.members) :
    Directive.ofDoc source (toDoc (.obj members)) = .ok d :=
  (directiveRecord source).read_written d.part d.part_nil (d.keys_members_sublist source)
    (by simp [directiveRecord]) (fun _ => Directive.set_part source h)
    (fun _ => Directive.part_eq_self) hperm

/-! ## Serial trees -/

theorem sortMembers_eq (members : List (String × Json)) :
    sortMembers members = members.foldl (fun done m => KeyMap.put m.1 m.2 done) [] := rfl

theorem sortMembers_ascending (members : List (String × Json)) :
    ((sortMembers members).map Prod.fst).Pairwise (· < ·) :=
  KeyMap.foldl_put_ascending List.Pairwise.nil

theorem sortMembers_perm {members : List (String × Json)} (h : (members.map Prod.fst).Nodup) :
    (sortMembers members).Perm members := by
  have hperm := KeyMap.foldl_put_perm members [] h (by simp)
  rwa [List.append_nil] at hperm

/-- Every member of a directive is read whole as it is. -/
theorem buffer_member {d : Directive} (h : d.Readable) {m : String × Json} (hm : m ∈ d.members)
    {depth : Nat} (hdepth : depth ≠ 0) : Doc.buffer depth (toDoc m.2) = .ok m.2 := by
  simp only [Directive.members, List.mem_append, List.mem_cons, List.not_mem_nil, or_false,
    mem_optionalMember, mem_stringsMember, Option.map_eq_some_iff] at hm
  rcases hm with ((((⟨j, ⟨p, _, rfl⟩, rfl⟩ | ⟨j, ⟨p, _, rfl⟩, rfl⟩) | rfl | rfl | rfl) |
    ⟨_, rfl⟩) | rfl) | ⟨_, rfl⟩
  · exact Doc.buffer_str depth p
  · exact Doc.buffer_str depth p
  · exact Doc.buffer_str depth _
  · exact Doc.buffer_nat depth h
  · exact Doc.buffer_str depth _
  · exact Doc.buffer_strings hdepth _
  · exact Doc.buffer_strings hdepth _
  · exact Doc.buffer_strings hdepth _

/-- Members in key order that are each read whole as they are. -/
theorem bufferMembers_sortMembers (depth : Nat) {members : List (String × Json)}
    (hnodup : (members.map Prod.fst).Nodup)
    (h : ∀ m ∈ members, Doc.buffer depth (toDoc m.2) = .ok m.2) :
    Doc.bufferMembers depth [] (toDocMembers (sortMembers members)) =
      .ok (sortMembers members) := by
  have hsorted : ∀ m ∈ sortMembers members, Doc.buffer depth (toDoc m.2) = .ok m.2 :=
    fun m hm => h m ((sortMembers_perm hnodup).mem_iff.1 hm)
  rw [Doc.bufferMembers_toDocMembers hsorted,
    KeyMap.foldl_put_eq_self (sortMembers_ascending members)]

theorem buffer_toTreeJson {e : Entry} (h : e.Readable) {depth : Nat} (hdepth : 2 ≤ depth) :
    Doc.buffer depth (toDoc e.toTreeJson) = .ok e.toTreeJson := by
  cases e with
  | reference name => exact Doc.buffer_str depth name
  | concrete d =>
    have hmembers := bufferMembers_sortMembers (depth - 1) d.nodup_members
      fun m hm => buffer_member h hm (by omega)
    rw [Entry.toTreeJson, toDoc, Doc.buffer, if_neg (by omega), hmembers]
    rfl

theorem Entry.ofMember_toTreeJson (key : String) {e : Entry} (h : e.Readable) :
    Entry.ofMember key e.toTreeJson = .ok e := by
  cases e with
  | reference name => rfl
  | concrete d =>
    rw [Entry.toTreeJson, Entry.ofMember,
      Directive.ofDoc_members .buffered h (sortMembers_perm d.nodup_members)]

/-- The entries of a tree, as members. -/
def Serial.entryMembers (s : Serial) : List (String × Json) :=
  s.entries.entries.map fun e => (e.1, e.2.toTreeJson)

/-- No field of a directive is an entry name. -/
theorem isEntryKey_member {d : Directive} {m : String × Json} (hm : m ∈ d.members) :
    isEntryKey m.1 = false := by
  have hkey := (d.keys_members_sublist .buffered).subset (List.mem_map_of_mem hm)
  have hfields : ∀ key ∈ (directiveRecord .buffered).fields, isEntryKey key = false := by decide
  exact hfields m.1 hkey

theorem isEntryKey_entryMember {s : Serial} (h : s.Readable) {m : String × Json}
    (hm : m ∈ s.entryMembers) : isEntryKey m.1 = true := by
  obtain ⟨e, he, rfl⟩ := List.mem_map.1 hm
  exact h.entryKey e he

theorem keys_entryMembers (s : Serial) : s.entryMembers.map Prod.fst = s.entries.keys := by
  simp [Serial.entryMembers, KeyMap.keys]

theorem nodup_treeMembers {s : Serial} (h : s.Readable) :
    ((s.root.members ++ s.entryMembers).map Prod.fst).Nodup := by
  rw [List.map_append, List.nodup_append]
  refine ⟨s.root.nodup_members, ?_, ?_⟩
  · rw [keys_entryMembers]
    exact s.entries.nodup_keys
  · intro key hroot key' hentry heq
    obtain ⟨m, hm, rfl⟩ := List.mem_map.1 hroot
    obtain ⟨m', hm', rfl⟩ := List.mem_map.1 hentry
    have hno := isEntryKey_member hm
    rw [heq, isEntryKey_entryMember h hm'] at hno
    cases hno

/-- Members whose entry names hold certain entries are split into these and the others. -/
theorem splitMembers_of_filter {members : List (String × Json)} {entries : List (String × Entry)}
    (hread : ∀ e ∈ entries, e.2.Readable)
    (h : members.filter (fun m => isEntryKey m.1) = entries.map fun e => (e.1, e.2.toTreeJson)) :
    splitMembers members = .ok (entries, members.filter fun m => !isEntryKey m.1) := by
  induction members generalizing entries with
  | nil =>
    cases entries with
    | nil => rfl
    | cons e entries => cases h
  | cons m rest ih =>
    obtain ⟨key, value⟩ := m
    cases hkey : isEntryKey key with
    | true =>
      rw [List.filter_cons_of_pos (by simpa using hkey)] at h
      cases entries with
      | nil => cases h
      | cons e entries =>
        obtain ⟨hhead, htail⟩ := List.cons.inj h
        obtain ⟨rfl, rfl⟩ := Prod.mk.inj hhead
        rw [List.forall_mem_cons] at hread
        rw [splitMembers, if_pos hkey, Entry.ofMember_toTreeJson e.1 hread.1, ih hread.2 htail,
          List.filter_cons_of_neg (by simpa using hkey)]
        rfl
    | false =>
      rw [List.filter_cons_of_neg (by simpa using hkey)] at h
      rw [splitMembers, if_neg (by simpa using hkey), ih hread h,
        List.filter_cons_of_pos (by simpa using hkey)]
      rfl

/-- A serial tree is read from its members in key order. -/
theorem Serial.ofDoc_toJson {s : Serial} (h : s.Readable) {depth : Nat} (hdepth : 2 ≤ depth) :
    Serial.ofDoc depth (toDoc s.toJson) = .ok s := by
  have hnodup := nodup_treeMembers h
  have hperm := sortMembers_perm hnodup
  have hbuffer := bufferMembers_sortMembers depth hnodup (by
    intro m hm
    rcases List.mem_append.1 hm with hm | hm
    · exact buffer_member h.root hm (by omega)
    · obtain ⟨e, he, rfl⟩ := List.mem_map.1 hm
      exact buffer_toTreeJson (h.entry e he) hdepth)
  have hroot : ∀ m ∈ s.root.members, isEntryKey m.1 = false := fun m => isEntryKey_member
  have hentry : ∀ m ∈ s.entryMembers, isEntryKey m.1 = true := fun m => isEntryKey_entryMember h
  have hentries : (sortMembers (s.root.members ++ s.entryMembers)).filter
      (fun m => isEntryKey m.1) = s.entryMembers := by
    refine KeyMap.eq_of_perm ((hperm.filter _).trans ?_) ?_ ?_
    · rw [List.filter_append, List.filter_eq_nil_iff.2 (by simpa using hroot),
        List.filter_eq_self.2 hentry]
      exact List.Perm.refl _
    · exact (sortMembers_ascending _).sublist (List.filter_sublist.map _)
    · rw [keys_entryMembers]
      exact s.entries.keys_ascending
  have hrest : ((sortMembers (s.root.members ++ s.entryMembers)).filter
      fun m => !isEntryKey m.1).Perm s.root.members := by
    refine (hperm.filter _).trans ?_
    rw [List.filter_append, List.filter_eq_self.2 (by simpa using hroot),
      List.filter_eq_nil_iff.2 (by simpa using hentry), List.append_nil]
  have hsplit := splitMembers_of_filter h.entry hentries
  have hjson : s.toJson = .obj (sortMembers (s.root.members ++ s.entryMembers)) := rfl
  rw [hjson, toDoc, Serial.ofDoc, hbuffer]
  simp only [bind, Except.bind, Doc.unbroken, Serial.ofMembers, hsplit,
    Directive.ofDoc_members .buffered h.root hrest, KeyMap.ofList_entries, pure, Except.pure]

/-! ## Denominations -/

/-- A map that is left out when it is empty. -/
def mapMember {α : Type} (key : String) (write : α → Json) (m : KeyMap α) :
    List (String × Json) :=
  if m.isEmpty then [] else [(key, mapToJson write m)]

theorem mem_mapMember {α : Type} {key : String} {write : α → Json} {map : KeyMap α}
    {m : String × Json} :
    m ∈ mapMember key write map ↔ map.entries ≠ [] ∧ m = (key, mapToJson write map) := by
  rw [mapMember, KeyMap.isEmpty]
  split
  · rename_i h
    simp [List.isEmpty_iff.1 h]
  · rename_i h
    have hne : map.entries ≠ [] := fun he => h (by simp [he])
    simp [hne]

theorem keys_mapMember_sublist {α : Type} (key : String) (write : α → Json) (m : KeyMap α) :
    ((mapMember key write m).map Prod.fst).Sublist [key] := by
  rw [mapMember]
  split <;> simp

theorem mem_or_eq_empty {α : Type} {key : String} {write : α → Json} {map : KeyMap α}
    {seen : List String} (h : ∀ m ∈ mapMember key write map, m.1 ∈ seen) :
    key ∈ seen ∨ map = .empty := by
  by_cases hmap : map.entries = []
  · exact .inr (KeyMap.ext hmap)
  · exact .inl (h _ (mem_mapMember.2 ⟨hmap, rfl⟩))

/-- The members of a denomination. -/
def Denomination.members (d : Denomination) : List (String × Json) :=
  stringsMember "patterns" d.patterns ++
    stringsMember "dualPatterns" d.dualPatterns ++
    [("joinMethod", .str (joinMethodName d.joinMethod))] ++
    optionalMember "fuzzy" (d.fuzzy.map Fuzzy.toJson) ++
    stringsMember "fuzzyIgnore" d.fuzzyIgnore ++
    mapMember "colorHints" Json.binary d.colorHints

theorem Denomination.toJson_eq (d : Denomination) : d.toJson = .obj d.members := rfl

theorem Denomination.keys_members_sublist (d : Denomination) :
    (d.members.map Prod.fst).Sublist denominationRecord.fields := by
  simp only [Denomination.members, List.map_append]
  exact (((((keys_stringsMember_sublist _ _).append (keys_stringsMember_sublist _ _)).append
    (List.Sublist.refl _)).append (keys_optionalMember_sublist _ _)).append
      (keys_stringsMember_sublist _ _)).append (keys_mapMember_sublist _ _ _)

/-- A denomination with some of its fields. -/
def Denomination.part (d : Denomination) (seen : List String) : Denomination where
  patterns := given seen "patterns" d.patterns []
  dualPatterns := given seen "dualPatterns" d.dualPatterns []
  joinMethod := given seen "joinMethod" d.joinMethod .perToken
  fuzzy := given seen "fuzzy" d.fuzzy none
  fuzzyIgnore := given seen "fuzzyIgnore" d.fuzzyIgnore []
  colorHints := given seen "colorHints" d.colorHints .empty

theorem Denomination.part_nil (d : Denomination) : d.part [] = {} := rfl

/-- The weights of the reference colours are read back. -/
def Denomination.Rereads (d : Denomination) : Prop :=
  ∀ e ∈ d.colorHints.entries, Doc.Rereads e.2

theorem Denomination.set_part {d : Denomination} (h : d.Readable) (hweights : d.Rereads)
    {m : String × Json} (hm : m ∈ d.members) (seen : List String) :
    denominationRecord.set (d.part seen) m.1 (toDoc m.2) = .ok (d.part (m.1 :: seen)) := by
  simp only [Denomination.members, List.mem_append, List.mem_cons, List.not_mem_nil, or_false,
    mem_optionalMember, mem_stringsMember, mem_mapMember, Option.map_eq_some_iff] at hm
  rcases hm with ((((⟨_, rfl⟩ | ⟨_, rfl⟩) | rfl) | ⟨j, ⟨f, hf, rfl⟩, rfl⟩) | ⟨_, rfl⟩) | ⟨_, rfl⟩
  · simp [denominationRecord, Denomination.part, given, strings_toDoc, Except.map]
  · simp [denominationRecord, Denomination.part, given, strings_toDoc, Except.map]
  · simp [denominationRecord, Denomination.part, given, choice_joinMethodName, Except.map]
  · have hread := Doc.option_of_ne_null (by simp [Fuzzy.toJson]) (Fuzzy.ofDoc_toJson (h f hf))
    simp [denominationRecord, Denomination.part, given, hread, hf, Except.map]
  · simp [denominationRecord, Denomination.part, given, strings_toDoc, Except.map]
  · have hread : Doc.map Doc.double (toDoc (mapToJson Json.binary d.colorHints)) =
        .ok d.colorHints := Doc.map_toDoc fun e he => (hweights e he).double_binary
    simp [denominationRecord, Denomination.part, given, hread, Except.map]

theorem Denomination.part_eq_self {d : Denomination} {seen : List String}
    (h : ∀ m ∈ d.members, m.1 ∈ seen) : d.part seen = d := by
  simp only [Denomination.members, List.mem_append, or_imp, forall_and, List.forall_mem_cons] at h
  obtain ⟨⟨⟨⟨⟨hpatterns, hdual⟩, hjoin, _⟩, hfuzzy⟩, hignore⟩, hhints⟩ := h
  simp only [Denomination.part]
  rw [given_eq_value (mem_or_eq_nil hpatterns), given_eq_value (mem_or_eq_nil hdual),
    given_eq_value (.inl hjoin), given_eq_value (mem_or_eq_none hfuzzy),
    given_eq_value (mem_or_eq_nil hignore), given_eq_value (mem_or_eq_empty hhints)]

theorem Denomination.ofDoc_toJson {d : Denomination} (h : d.Readable) (hweights : d.Rereads) :
    Denomination.ofDoc (toDoc d.toJson) = .ok d :=
  denominationRecord.read_written d.part d.part_nil d.keys_members_sublist
    (by simp [denominationRecord]) (fun _ => Denomination.set_part h hweights)
    (fun _ => Denomination.part_eq_self) (List.Perm.refl d.members)

/-! ## Currencies and tables -/

/-- The members of a currency. -/
def Currency.members (c : Currency) : List (String × Json) :=
  optionalMember "language" (c.language.map .str) ++
    stringsMember "textMarks" c.textMarks ++
    mapMember "denominations" Denomination.toJson c.denominations ++
    optionalMember "serial" (c.serial.map Serial.toJson)

theorem Currency.toJson_eq (c : Currency) : c.toJson = .obj c.members := rfl

theorem Currency.keys_members_sublist (c : Currency) :
    (c.members.map Prod.fst).Sublist currencyRecord.fields := by
  simp only [Currency.members, List.map_append]
  exact (((keys_optionalMember_sublist _ _).append (keys_stringsMember_sublist _ _)).append
    (keys_mapMember_sublist _ _ _)).append (keys_optionalMember_sublist _ _)

/-- A currency with some of its fields. -/
def Currency.part (c : Currency) (seen : List String) : Currency where
  language := given seen "language" c.language none
  textMarks := given seen "textMarks" c.textMarks []
  denominations := given seen "denominations" c.denominations .empty
  serial := given seen "serial" c.serial none

theorem Currency.part_nil (c : Currency) : c.part [] = {} := rfl

/-- The weights of the reference colours are read back. -/
def Currency.Rereads (c : Currency) : Prop := ∀ e ∈ c.denominations.entries, e.2.Rereads

theorem Currency.set_part {c : Currency} (h : c.Readable) (hweights : c.Rereads)
    {m : String × Json} (hm : m ∈ c.members) (seen : List String) :
    currencyRecord.set (c.part seen) m.1 (toDoc m.2) = .ok (c.part (m.1 :: seen)) := by
  simp only [Currency.members, List.mem_append, mem_optionalMember, mem_stringsMember,
    mem_mapMember, Option.map_eq_some_iff] at hm
  rcases hm with ((⟨j, ⟨l, hl, rfl⟩, rfl⟩ | ⟨_, rfl⟩) | ⟨_, rfl⟩) | ⟨j, ⟨s, hs, rfl⟩, rfl⟩
  · have hread := Doc.option_of_ne_null (by simp) (Doc.text_str l)
    simp [currencyRecord, Currency.part, given, hread, hl, Except.map]
  · simp [currencyRecord, Currency.part, given, strings_toDoc, Except.map]
  · have hread : Doc.map Denomination.ofDoc
        (toDoc (mapToJson Denomination.toJson c.denominations)) = .ok c.denominations :=
      Doc.map_toDoc fun e he => Denomination.ofDoc_toJson (h.denomination e he) (hweights e he)
    simp [currencyRecord, Currency.part, given, hread, Except.map]
  · have hread := Doc.option_of_ne_null (by simp [Serial.toJson])
      (Serial.ofDoc_toJson (h.serial s hs) (show 2 ≤ maxDepth - 3 by decide))
    simp [currencyRecord, Currency.part, given, hread, hs, Except.map]

theorem Currency.part_eq_self {c : Currency} {seen : List String}
    (h : ∀ m ∈ c.members, m.1 ∈ seen) : c.part seen = c := by
  simp only [Currency.members, List.mem_append, or_imp, forall_and] at h
  obtain ⟨⟨⟨hlanguage, hmarks⟩, hdenominations⟩, hserial⟩ := h
  simp only [Currency.part]
  rw [given_eq_value (mem_or_eq_none hlanguage), given_eq_value (mem_or_eq_nil hmarks),
    given_eq_value (mem_or_eq_empty hdenominations), given_eq_value (mem_or_eq_none hserial)]

theorem Currency.ofDoc_toJson {c : Currency} (h : c.Readable) (hweights : c.Rereads) :
    Currency.ofDoc (toDoc c.toJson) = .ok c :=
  currencyRecord.read_written c.part c.part_nil c.keys_members_sublist
    (by simp [currencyRecord]) (fun _ => Currency.set_part h hweights)
    (fun _ => Currency.part_eq_self) (List.Perm.refl c.members)

/-- A table is read from the document that it is written as. -/
theorem tableOfDoc_toJson {t : Table} (h : TableReadable t)
    (hweights : ∀ e ∈ t.entries, e.2.Rereads) : tableOfDoc (toDoc (tableToJson t)) = .ok t :=
  Doc.map_toDoc fun e he => Currency.ofDoc_toJson (h e he) (hweights e he)

end Banknote.Config
