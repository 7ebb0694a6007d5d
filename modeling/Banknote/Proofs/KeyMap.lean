import Banknote.KeyMap

/-!
# What a map in key order holds

Three groups of lemmas about `KeyMap`.

* Keys.  `mem_put_keys_iff` and its consequences say which keys a map has.
* Entries.  `mem_entries_insert` and `mem_entries_ofList` say where an entry comes from, and
  `get?_eq_some_iff` says that a look-up finds the entries.
* Order.  `put` sorts by insertion: a list without a repeated key is only reordered
  (`foldl_put_perm`), an ascending list stays as it is (`foldl_put_eq_self`), and so a map is made
  again from its entries (`ofList_entries`).  Two keys can be stored in either order (`put_comm`).
-/

namespace Banknote.KeyMap

variable {α β ε : Type}

/-! ## Keys -/

/-- The keys ascend strictly. -/
theorem keys_ascending (m : KeyMap α) : m.keys.Pairwise (· < ·) := m.ascending

/-- The keys after `put` are the old ones and the new one. -/
theorem mem_put_keys_iff {key k : String} {value : α} {l : List (String × α)} :
    k ∈ (put key value l).map Prod.fst ↔ k = key ∨ k ∈ l.map Prod.fst := by
  induction l with
  | nil => simp [put]
  | cons head rest ih =>
    obtain ⟨k₀, v₀⟩ := head
    rw [put]
    split
    · simp
    · split
      · rename_i heq
        subst heq
        simp
      · simp only [List.map_cons, List.mem_cons, ih]
        exact or_left_comm

theorem mem_keys_insert {m : KeyMap α} {key k : String} {value : α} :
    k ∈ (m.insert key value).keys ↔ k = key ∨ k ∈ m.keys :=
  mem_put_keys_iff

theorem mem_keys_foldl_insert {l : List (String × α)} {m : KeyMap α} {k : String} :
    k ∈ (l.foldl (fun m e => m.insert e.1 e.2) m).keys ↔ k ∈ l.map Prod.fst ∨ k ∈ m.keys := by
  induction l generalizing m with
  | nil => simp
  | cons e l ih =>
    rw [List.foldl_cons, ih, mem_keys_insert, List.map_cons, List.mem_cons]
    constructor
    · rintro (h | h | h)
      · exact .inl (.inr h)
      · exact .inl (.inl h)
      · exact .inr h
    · rintro ((h | h) | h)
      · exact .inr (.inl h)
      · exact .inl h
      · exact .inr (.inr h)

/-- No key occurs twice. -/
theorem nodup_keys (m : KeyMap α) : m.keys.Nodup := by
  refine m.keys_ascending.imp ?_
  rintro k _ hlt rfl
  exact String.lt_irrefl k hlt

/-- A map made from a list has the keys of the list. -/
theorem mem_keys_ofList {l : List (String × α)} {k : String} :
    k ∈ (ofList l).keys ↔ k ∈ l.map Prod.fst := by
  rw [ofList, mem_keys_foldl_insert]
  simp [keys, empty]

/-! ## Entries -/

/-- An entry after `put` is the new one or an old one. -/
theorem mem_put {key : String} {value : α} {l : List (String × α)} {e : String × α}
    (h : e ∈ put key value l) : e = (key, value) ∨ e ∈ l := by
  induction l with
  | nil => simpa [put] using h
  | cons head rest ih =>
    obtain ⟨k₀, v₀⟩ := head
    rw [put] at h
    split at h
    · simpa using h
    · split at h
      · rw [List.mem_cons] at h
        exact h.imp_right (List.mem_cons_of_mem _)
      · rw [List.mem_cons] at h
        rcases h with h | h
        · exact .inr (h ▸ List.mem_cons_self)
        · exact (ih h).imp_right (List.mem_cons_of_mem _)

theorem mem_entries_insert {m : KeyMap α} {key : String} {value : α} {e : String × α}
    (h : e ∈ (m.insert key value).entries) : e = (key, value) ∨ e ∈ m.entries :=
  mem_put h

/-- Every entry that is put comes from the list. -/
theorem mem_foldl_put {l done : List (String × α)} {e : String × α}
    (h : e ∈ l.foldl (fun done e => put e.1 e.2 done) done) : e ∈ l ∨ e ∈ done := by
  induction l generalizing done with
  | nil => exact .inr h
  | cons first rest ih =>
    rcases ih h with h | h
    · exact .inl (List.mem_cons_of_mem _ h)
    · rcases mem_put h with rfl | h
      · exact .inl List.mem_cons_self
      · exact .inr h

theorem entries_foldl_insert (l : List (String × α)) (m : KeyMap α) :
    (l.foldl (fun m e => m.insert e.1 e.2) m).entries =
      l.foldl (fun done e => put e.1 e.2 done) m.entries := by
  induction l generalizing m with
  | nil => rfl
  | cons e l ih => exact ih (m.insert e.1 e.2)

/-- Every entry of a map that is made from a list comes from the list. -/
theorem mem_entries_ofList {l : List (String × α)} {e : String × α}
    (h : e ∈ (ofList l).entries) : e ∈ l := by
  rw [ofList, entries_foldl_insert] at h
  exact (mem_foldl_put h).resolve_right List.not_mem_nil

theorem lookup_eq_some_iff {l : List (String × α)} (h : (l.map Prod.fst).Pairwise (· < ·))
    {k : String} {v : α} : l.lookup k = some v ↔ (k, v) ∈ l := by
  induction l with
  | nil => simp
  | cons head rest ih =>
    obtain ⟨k₀, v₀⟩ := head
    simp only [List.map_cons, List.pairwise_cons] at h
    by_cases hk : k = k₀
    · subst hk
      have hrest : ∀ w, (k, w) ∉ rest := fun w hw =>
        String.lt_irrefl k (h.1 k (List.mem_map_of_mem hw))
      simp [hrest, eq_comm]
    · have hb : (k == k₀) = false := by simpa using hk
      simp [List.lookup_cons, hb, ih h.2, hk]

/-- A look-up finds what the entries say. -/
theorem get?_eq_some_iff {m : KeyMap α} {k : String} {v : α} :
    m.get? k = some v ↔ (k, v) ∈ m.entries :=
  lookup_eq_some_iff m.ascending

/-- What holds of all that is found holds of all entries. -/
theorem forall_get?_iff (m : KeyMap α) (P : String → α → Prop) :
    (∀ k v, m.get? k = some v → P k v) ↔ ∀ e ∈ m.entries, P e.1 e.2 := by
  constructor
  · intro h e he
    exact h e.1 e.2 (get?_eq_some_iff.2 he)
  · intro h k v hv
    exact h (k, v) (get?_eq_some_iff.1 hv)

/-- A key is present exactly when it is one of the keys. -/
theorem get?_eq_none_iff {m : KeyMap α} {k : String} : m.get? k = none ↔ k ∉ m.keys := by
  constructor
  · intro h hk
    obtain ⟨⟨k', v⟩, he, rfl⟩ := List.mem_map.1 hk
    rw [get?_eq_some_iff.2 he] at h
    cases h
  · intro h
    cases hv : m.get? k with
    | none => rfl
    | some v => exact absurd (List.mem_map_of_mem (get?_eq_some_iff.1 hv)) h

/-! ## Order -/

/-- A key that is new is put between the others. -/
theorem put_perm {key : String} {value : α} {l : List (String × α)}
    (h : key ∉ l.map Prod.fst) : (put key value l).Perm ((key, value) :: l) := by
  induction l with
  | nil => exact List.Perm.refl _
  | cons head rest ih =>
    obtain ⟨k₀, v₀⟩ := head
    rw [List.map_cons, List.mem_cons, not_or] at h
    rw [put]
    split
    · exact List.Perm.refl _
    · rw [if_neg h.1]
      exact ((ih h.2).cons _).trans (List.Perm.swap _ _ _)

/-- A key after all others comes last. -/
theorem put_of_lt {key : String} {value : α} {l : List (String × α)}
    (h : ∀ k ∈ l.map Prod.fst, k < key) : put key value l = l ++ [(key, value)] := by
  induction l with
  | nil => rfl
  | cons head rest ih =>
    obtain ⟨k₀, v₀⟩ := head
    simp only [List.map_cons, List.mem_cons, forall_eq_or_imp] at h
    have hlt : ¬ key < k₀ := String.lt_asymm h.1
    have hne : key ≠ k₀ := fun he => String.lt_irrefl k₀ (he ▸ h.1)
    rw [put, if_neg hlt, if_neg hne, ih h.2]
    rfl

theorem put_put_of_lt {k k' : String} (h : k < k') (v v' : α) (l : List (String × α)) :
    put k' v' (put k v l) = put k v (put k' v' l) := by
  have hne : k' ≠ k := fun heq => String.lt_irrefl k (heq ▸ h)
  have hnlt : ¬ k' < k := String.lt_asymm h
  induction l with
  | nil => simp [put, h, hne, hnlt]
  | cons head rest ih =>
    obtain ⟨k₀, v₀⟩ := head
    by_cases hlt : k < k₀
    · by_cases hlt' : k' < k₀
      · simp [put, hlt, hlt', h, hne, hnlt]
      · by_cases heq' : k' = k₀
        · subst heq'
          simp [put, hlt, hne, hnlt]
        · simp [put, hlt, hlt', heq', hne, hnlt]
    · by_cases heq : k = k₀
      · subst heq
        simp [put, hne, hnlt]
      · have hgt : ¬ k' < k₀ := fun hlt' => hlt (String.lt_trans h hlt')
        have hne' : k' ≠ k₀ := fun heq' => hlt (heq' ▸ h)
        simp [put, hlt, heq, hgt, hne', ih]

/-- Values under two keys can be stored in either order. -/
theorem put_comm {k k' : String} (h : k ≠ k') (v v' : α) (l : List (String × α)) :
    put k' v' (put k v l) = put k v (put k' v' l) := by
  by_cases hlt : k < k'
  · exact put_put_of_lt hlt v v' l
  · have hgt : k' < k := by
      refine Classical.byContradiction fun hnot => h ?_
      exact String.le_antisymm (String.not_lt.1 hnot) (String.not_lt.1 hlt)
    exact (put_put_of_lt hgt v' v l).symm

theorem insert_comm {k k' : String} (h : k ≠ k') (v v' : α) (m : KeyMap α) :
    (m.insert k v).insert k' v' = (m.insert k' v').insert k v :=
  ext (put_comm h v v' m.entries)

theorem foldl_put_ascending {l done : List (String × α)}
    (h : (done.map Prod.fst).Pairwise (· < ·)) :
    ((l.foldl (fun done e => put e.1 e.2 done) done).map Prod.fst).Pairwise (· < ·) := by
  induction l generalizing done with
  | nil => exact h
  | cons e l ih => exact ih (put_ascending h)

/-- Putting entries without a repeated key one after the other only reorders them. -/
theorem foldl_put_perm (l done : List (String × α)) (hl : (l.map Prod.fst).Nodup)
    (hdone : ∀ k ∈ l.map Prod.fst, k ∉ done.map Prod.fst) :
    (l.foldl (fun done e => put e.1 e.2 done) done).Perm (l ++ done) := by
  induction l generalizing done with
  | nil => exact List.Perm.refl _
  | cons e l ih =>
    obtain ⟨k, v⟩ := e
    simp only [List.map_cons, List.nodup_cons, List.mem_cons, forall_eq_or_imp] at hl hdone
    have hput : ∀ k' ∈ l.map Prod.fst, k' ∉ (put k v done).map Prod.fst := by
      intro k' hk' hmem
      rcases mem_put_keys_iff.1 hmem with rfl | hmem
      · exact hl.1 hk'
      · exact hdone.2 k' hk' hmem
    refine (ih _ hl.2 hput).trans ?_
    exact ((put_perm hdone.1).append_left l).trans List.perm_middle

/-- Entries that ascend after those before them are put at the end. -/
theorem foldl_put_append (l : List (String × α)) {done : List (String × α)}
    (h : ((done ++ l).map Prod.fst).Pairwise (· < ·)) :
    l.foldl (fun done e => put e.1 e.2 done) done = done ++ l := by
  induction l generalizing done with
  | nil => simp
  | cons e l ih =>
    obtain ⟨k, v⟩ := e
    have hlast : ∀ k' ∈ done.map Prod.fst, k' < k := by
      rw [List.map_append, List.pairwise_append] at h
      exact fun k' hk' => h.2.2 k' hk' k (by simp)
    rw [List.foldl_cons, put_of_lt hlast, ih (by simpa using h)]
    simp

/-- Entries that ascend stay as they are. -/
theorem foldl_put_eq_self {l : List (String × α)} (h : (l.map Prod.fst).Pairwise (· < ·)) :
    l.foldl (fun done e => put e.1 e.2 done) [] = l :=
  foldl_put_append l h

/-- Entries in ascending order are determined up to reordering. -/
theorem eq_of_perm {l l' : List (String × α)} (h : l.Perm l')
    (hl : (l.map Prod.fst).Pairwise (· < ·)) (hl' : (l'.map Prod.fst).Pairwise (· < ·)) :
    l = l' := by
  rw [List.pairwise_map] at hl hl'
  exact List.Perm.eq_of_pairwise (fun a b _ _ hab hba => absurd hba (String.lt_asymm hab)) hl hl' h

/-- Texts in ascending order are determined by which they are. -/
theorem eq_of_mem_iff {l l' : List String} (hl : l.Pairwise (· < ·)) (hl' : l'.Pairwise (· < ·))
    (h : ∀ k, k ∈ l ↔ k ∈ l') : l = l' := by
  have hne : ∀ {a b : String}, a < b → a ≠ b := by
    rintro a _ hlt rfl
    exact String.lt_irrefl a hlt
  have hperm : l.Perm l' := (List.perm_ext_iff_of_nodup (hl.imp hne) (hl'.imp hne)).2 fun k => h k
  exact List.Perm.eq_of_pairwise (fun a b _ _ hab hba => absurd hba (String.lt_asymm hab)) hl hl'
    hperm

/-- A map is determined by what is found in it. -/
theorem ext_get? {a b : KeyMap α} (h : ∀ k, a.get? k = b.get? k) : a = b := by
  have hnodup : ∀ m : KeyMap α, m.entries.Nodup := fun m =>
    List.Pairwise.of_map Prod.fst (fun _ _ hne heq => hne (congrArg Prod.fst heq)) m.nodup_keys
  have hmem : ∀ e, e ∈ a.entries ↔ e ∈ b.entries := by
    rintro ⟨k, v⟩
    rw [← get?_eq_some_iff, ← get?_eq_some_iff, h k]
  have hperm := (List.perm_ext_iff_of_nodup (hnodup a) (hnodup b)).2 hmem
  exact ext (eq_of_perm hperm a.ascending b.ascending)

/-- A stored value does not outlast its key. -/
theorem erase_insert_self (m : KeyMap α) (k : String) (v : α) :
    (m.insert k v).erase k = m.erase k := by
  refine ext_get? fun k' => ?_
  rw [get?_erase, get?_erase]
  split
  · rfl
  · rename_i hne
    exact m.get?_insert_of_ne v hne

/-- Of two values that are stored one after the other, the second one stays. -/
theorem insert_insert (m : KeyMap α) (k : String) (v v' : α) :
    (m.insert k v).insert k v' = m.insert k v' := by
  refine ext_get? fun k' => ?_
  by_cases hk : k' = k
  · rw [hk, get?_insert_self, get?_insert_self]
  · rw [get?_insert_of_ne _ _ hk, get?_insert_of_ne _ _ hk, get?_insert_of_ne _ _ hk]

/-- What is stored does not depend on what stood there. -/
theorem insert_erase (m : KeyMap α) (k : String) (v : α) :
    (m.erase k).insert k v = m.insert k v := by
  refine ext_get? fun k' => ?_
  by_cases hk : k' = k
  · rw [hk, get?_insert_self, get?_insert_self]
  · rw [get?_insert_of_ne _ _ hk, get?_insert_of_ne _ _ hk, get?_erase, if_neg hk]

/-- Taking away a key that is not there changes nothing. -/
theorem erase_eq_self {m : KeyMap α} {k : String} (h : k ∉ m.keys) : m.erase k = m := by
  refine ext_get? fun k' => ?_
  rw [get?_erase]
  split
  · rename_i heq
    rw [heq, get?_eq_none_iff.2 h]
  · rfl

/-- A key that is sorted out can be put in before. -/
theorem filter_put {p : String → Bool} {key : String} (h : p key = false) (value : α)
    (l : List (String × α)) :
    (put key value l).filter (fun e => p e.1) = l.filter fun e => p e.1 := by
  induction l with
  | nil => simp [put, h]
  | cons head rest ih =>
    obtain ⟨k, v⟩ := head
    rw [put]
    split
    · rw [List.filter_cons_of_neg (by simp [h])]
    · split
      · rename_i heq
        subst heq
        rw [List.filter_cons_of_neg (by simp [h]), List.filter_cons_of_neg (by simp [h])]
      · rw [List.filter_cons, List.filter_cons, ih]

/-- A map is made again from its entries. -/
theorem ofList_entries (m : KeyMap α) : ofList m.entries = m :=
  ext ((entries_foldl_insert m.entries empty).trans (foldl_put_eq_self m.ascending))

end Banknote.KeyMap
