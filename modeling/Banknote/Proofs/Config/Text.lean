import Banknote.Proofs.Config.RoundTrip

/-!
# The text of a table is read as the table

`wellFormed_tableToJson` says that every numeral of a written table is a numeral of the grammar, so
the reader finds in the text the document of the table.  With `tableOfDoc_toJson` this makes the
text, compact or one item to a line, read as the table (`tableOfText_compact`,
`tableOfText_pretty`).
-/

namespace Banknote.Config

open Json

/-! ## Written values -/

theorem wellFormed_mapToJson {α : Type} {write : α → Json} {map : KeyMap α}
    (h : ∀ e ∈ map.entries, (write e.2).WellFormed) : (mapToJson write map).WellFormed := by
  rw [mapToJson, Json.WellFormed, wellFormedMembers_iff]
  intro m hm
  obtain ⟨e, he, rfl⟩ := List.mem_map.1 hm
  exact h e he

theorem Fuzzy.wellFormed_toJson (f : Fuzzy) : f.toJson.WellFormed := by
  rw [Fuzzy.toJson, Json.WellFormed, wellFormedMembers_iff]
  intro m hm
  simp only [List.mem_cons, List.not_mem_nil, or_false] at hm
  rcases hm with rfl | rfl
  · exact wellFormed_strings f.vocabulary
  · exact wellFormed_nat f.depth

theorem Directive.wellFormed_member {d : Directive} {m : String × Json} (hm : m ∈ d.members) :
    m.2.WellFormed := by
  simp only [Directive.members, List.mem_append, List.mem_cons, List.not_mem_nil, or_false,
    mem_optionalMember, mem_stringsMember, Option.map_eq_some_iff] at hm
  rcases hm with ((((⟨j, ⟨p, _, rfl⟩, rfl⟩ | ⟨j, ⟨p, _, rfl⟩, rfl⟩) | rfl | rfl | rfl) |
    ⟨_, rfl⟩) | rfl) | ⟨_, rfl⟩
  · exact wellFormed_str p
  · exact wellFormed_str p
  · exact wellFormed_str _
  · exact wellFormed_nat d.captureGroup
  · exact wellFormed_str _
  · exact wellFormed_strings d.tokensToRemove
  · exact wellFormed_strings d.resultFilters
  · exact wellFormed_strings d.matchFilters

theorem wellFormed_sortMembers {members : List (String × Json)}
    (h : ∀ m ∈ members, m.2.WellFormed) : (Json.obj (sortMembers members)).WellFormed := by
  rw [Json.WellFormed, wellFormedMembers_iff]
  intro m hm
  rw [sortMembers_eq] at hm
  exact h m ((KeyMap.mem_foldl_put hm).resolve_right List.not_mem_nil)

theorem Serial.wellFormed_toJson (s : Serial) : s.toJson.WellFormed := by
  refine wellFormed_sortMembers fun m hm => ?_
  rcases List.mem_append.1 hm with hm | hm
  · exact Directive.wellFormed_member hm
  · obtain ⟨⟨key, entry⟩, _, rfl⟩ := List.mem_map.1 hm
    cases entry with
    | reference name => exact wellFormed_str name
    | concrete d => exact wellFormed_sortMembers fun m => Directive.wellFormed_member

theorem Denomination.wellFormed_toJson (d : Denomination) : d.toJson.WellFormed := by
  rw [Denomination.toJson_eq, Json.WellFormed, wellFormedMembers_iff]
  intro m hm
  simp only [Denomination.members, List.mem_append, List.mem_cons, List.not_mem_nil, or_false,
    mem_optionalMember, mem_stringsMember, mem_mapMember, Option.map_eq_some_iff] at hm
  rcases hm with ((((⟨_, rfl⟩ | ⟨_, rfl⟩) | rfl) | ⟨j, ⟨f, _, rfl⟩, rfl⟩) | ⟨_, rfl⟩) | ⟨_, rfl⟩
  · exact wellFormed_strings d.patterns
  · exact wellFormed_strings d.dualPatterns
  · exact wellFormed_str _
  · exact f.wellFormed_toJson
  · exact wellFormed_strings d.fuzzyIgnore
  · exact wellFormed_mapToJson fun e _ => wellFormed_binary e.2

theorem Currency.wellFormed_toJson (c : Currency) : c.toJson.WellFormed := by
  rw [Currency.toJson_eq, Json.WellFormed, wellFormedMembers_iff]
  intro m hm
  simp only [Currency.members, List.mem_append, mem_optionalMember, mem_stringsMember,
    mem_mapMember, Option.map_eq_some_iff] at hm
  rcases hm with ((⟨j, ⟨l, _, rfl⟩, rfl⟩ | ⟨_, rfl⟩) | ⟨_, rfl⟩) | ⟨j, ⟨s, _, rfl⟩, rfl⟩
  · exact wellFormed_str l
  · exact wellFormed_strings c.textMarks
  · exact wellFormed_mapToJson fun e _ => e.2.wellFormed_toJson
  · exact s.wellFormed_toJson

theorem wellFormed_tableToJson (t : Table) : (tableToJson t).WellFormed :=
  wellFormed_mapToJson fun e _ => e.2.wellFormed_toJson

/-! ## Texts -/

/-- The compact text of a table is read as the table. -/
theorem tableOfText_compact {t : Table} (h : TableReadable t)
    (hweights : ∀ e ∈ t.entries, e.2.Rereads) : tableOfText (tableToJson t).compact = .ok t := by
  rw [tableOfText, readText_compact tableOfDoc (wellFormed_tableToJson t)]
  exact tableOfDoc_toJson h hweights

/-- The text of a table with one item to a line is read as the table. -/
theorem tableOfText_pretty {t : Table} (h : TableReadable t)
    (hweights : ∀ e ∈ t.entries, e.2.Rereads) : tableOfText (tableToJson t).pretty = .ok t := by
  rw [tableOfText, readText_pretty tableOfDoc (wellFormed_tableToJson t)]
  exact tableOfDoc_toJson h hweights

end Banknote.Config
