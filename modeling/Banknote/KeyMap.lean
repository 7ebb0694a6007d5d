/-!
# Maps kept in key order

A `KeyMap` is a finite map from text keys, stored as the list of its entries in strictly ascending
key order.  The order is part of the type, so two maps with the same entries are equal and every
walk over a map is a walk in key order.

`insert` replaces the value of a key that is present, and `erase` takes a key away;
`get?_insert_self`, `get?_insert_of_ne` and `get?_erase` say what they do to every look-up.
-/

namespace Banknote

/-- A finite map whose entries are listed in strictly ascending key order. -/
structure KeyMap (α : Type) where
  /-- The entries, least key first. -/
  entries : List (String × α)
  /-- The keys ascend strictly, so none occurs twice. -/
  ascending : (entries.map Prod.fst).Pairwise (· < ·)

namespace KeyMap

variable {α β ε : Type}

/-- The map without entries. -/
def empty : KeyMap α := ⟨[], List.Pairwise.nil⟩

instance : Inhabited (KeyMap α) := ⟨empty⟩

instance [BEq α] : BEq (KeyMap α) := ⟨fun a b => a.entries == b.entries⟩

/-- Puts one entry at its place in an ordered list, over an entry of the same key. -/
def put (key : String) (value : α) : List (String × α) → List (String × α)
  | [] => [(key, value)]
  | (k, v) :: rest =>
    if key < k then (key, value) :: (k, v) :: rest
    else if key = k then (key, value) :: rest
    else (k, v) :: put key value rest

/-- The keys after `put` are the old ones and the new one. -/
theorem mem_put_keys {key k : String} {value : α} {l : List (String × α)}
    (h : k ∈ (put key value l).map Prod.fst) : k = key ∨ k ∈ l.map Prod.fst := by
  induction l with
  | nil => simpa [put] using h
  | cons head rest ih =>
    obtain ⟨k₀, v₀⟩ := head
    rw [put] at h
    split at h
    · simpa using h
    · split at h
      · rename_i heq
        simp only [List.map_cons, List.mem_cons] at h ⊢
        exact h.imp_right .inr
      · simp only [List.map_cons, List.mem_cons] at h ⊢
        rcases h with h | h
        · exact .inr (.inl h)
        · exact (ih h).imp_right .inr

/-- `put` keeps the keys in order. -/
theorem put_ascending {key : String} {value : α} {l : List (String × α)}
    (h : (l.map Prod.fst).Pairwise (· < ·)) :
    ((put key value l).map Prod.fst).Pairwise (· < ·) := by
  induction l with
  | nil => simp [put]
  | cons head rest ih =>
    obtain ⟨k₀, v₀⟩ := head
    simp only [List.map_cons, List.pairwise_cons] at h
    rw [put]
    split
    · rename_i hlt
      simp only [List.map_cons, List.pairwise_cons, List.mem_cons, forall_eq_or_imp]
      exact ⟨⟨hlt, fun k hk => String.lt_trans hlt (h.1 k hk)⟩, h⟩
    · rename_i hge
      split
      · rename_i heq
        simp only [List.map_cons, List.pairwise_cons]
        exact ⟨fun k hk => heq ▸ h.1 k hk, h.2⟩
      · rename_i hne
        simp only [List.map_cons, List.pairwise_cons]
        refine ⟨fun k hk => ?_, ih h.2⟩
        rcases mem_put_keys hk with rfl | hk
        · rcases String.le_total k₀ k with hle | hle
          · exact Classical.byContradiction fun hn =>
              hne (String.le_antisymm (String.not_lt.1 hn) hle)
          · exact absurd (String.le_antisymm hle (String.not_lt.1 hge)) hne
        · exact h.1 k hk

/-- Stores `value` under `key`, over a value that stands there. -/
def insert (m : KeyMap α) (key : String) (value : α) : KeyMap α :=
  ⟨put key value m.entries, put_ascending m.ascending⟩

/-- Takes away `key` with its value. -/
def erase (m : KeyMap α) (key : String) : KeyMap α :=
  ⟨m.entries.filter fun e => e.1 != key, m.ascending.sublist (List.filter_sublist.map _)⟩

/-- Inserts the entries one after the other, so the last one of a key stays. -/
def ofList (entries : List (String × α)) : KeyMap α :=
  entries.foldl (fun m e => m.insert e.1 e.2) empty

/-- The value under a key. -/
def get? (m : KeyMap α) (key : String) : Option α := m.entries.lookup key

/-- Whether a key is present. -/
def contains (m : KeyMap α) (key : String) : Bool := (m.get? key).isSome

/-- The keys, in ascending order. -/
def keys (m : KeyMap α) : List String := m.entries.map Prod.fst

/-- The values, in the order of their keys. -/
def values (m : KeyMap α) : List α := m.entries.map Prod.snd

/-- The number of entries. -/
def size (m : KeyMap α) : Nat := m.entries.length

/-- Whether there is no entry. -/
def isEmpty (m : KeyMap α) : Bool := m.entries.isEmpty

theorem lookup_put_self (key : String) (value : α) (l : List (String × α)) :
    (put key value l).lookup key = some value := by
  induction l with
  | nil => simp [put]
  | cons head rest ih =>
    obtain ⟨k, v⟩ := head
    rw [put]
    split
    · simp
    · split
      · simp
      · rename_i hne
        have hb : (key == k) = false := by simpa using hne
        simp only [List.lookup_cons, hb, ih]

theorem lookup_put_of_ne {key key' : String} (value : α) (l : List (String × α))
    (h : key' ≠ key) : (put key value l).lookup key' = l.lookup key' := by
  have hb : (key' == key) = false := by simpa using h
  induction l with
  | nil => simp [put, List.lookup_cons, hb]
  | cons head rest ih =>
    obtain ⟨k, v⟩ := head
    rw [put]
    split
    · simp [List.lookup_cons, hb]
    · split
      · rename_i heq
        subst heq
        simp [List.lookup_cons, hb]
      · simp only [List.lookup_cons, ih]

/-- A stored value is read back. -/
@[simp] theorem get?_insert_self (m : KeyMap α) (key : String) (value : α) :
    (m.insert key value).get? key = some value :=
  lookup_put_self key value m.entries

/-- A store touches no other key. -/
theorem get?_insert_of_ne (m : KeyMap α) {key key' : String} (value : α) (h : key' ≠ key) :
    (m.insert key value).get? key' = m.get? key' :=
  lookup_put_of_ne value m.entries h

theorem lookup_filter (key key' : String) (l : List (String × α)) :
    (l.filter fun e => e.1 != key).lookup key' = if key' = key then none else l.lookup key' := by
  induction l with
  | nil => simp
  | cons head rest ih =>
    obtain ⟨k, v⟩ := head
    rw [List.filter_cons]
    by_cases hk : k = key
    · subst hk
      have hb : (key' == k) = decide (key' = k) := rfl
      simp only [bne_self_eq_false, Bool.false_eq_true, if_false, ih, List.lookup_cons, hb]
      by_cases hk' : key' = k <;> simp [hk']
    · have hne : (k != key) = true := by simpa using hk
      simp only [hne, if_true, List.lookup_cons, ih]
      by_cases hk' : key' = k
      · subst hk'
        simp [hk]
      · have hb : (key' == k) = false := by simpa using hk'
        simp [hb]

/-- An erased key is not found, and every other key is found as before. -/
theorem get?_erase (m : KeyMap α) (key key' : String) :
    (m.erase key).get? key' = if key' = key then none else m.get? key' :=
  lookup_filter key key' m.entries

/-- Two maps are equal when their entries are. -/
theorem ext {a b : KeyMap α} (h : a.entries = b.entries) : a = b := by
  cases a; cases b; cases h; rfl

/-- Rebuilds the values of an entry list in order, up to the first failure. -/
def traverseEntries (f : String → α → Except ε β) :
    List (String × α) → Except ε (List (String × β))
  | [] => .ok []
  | (k, a) :: rest =>
    match f k a with
    | .error e => .error e
    | .ok b =>
      match traverseEntries f rest with
      | .error e => .error e
      | .ok bs => .ok ((k, b) :: bs)

/-- Rebuilding the values keeps the keys. -/
theorem traverseEntries_keys {f : String → α → Except ε β} {l : List (String × α)}
    {r : List (String × β)} (h : traverseEntries f l = .ok r) :
    r.map Prod.fst = l.map Prod.fst := by
  induction l generalizing r with
  | nil => cases h; rfl
  | cons head rest ih =>
    obtain ⟨k, a⟩ := head
    rw [traverseEntries] at h
    split at h
    · cases h
    · split at h
      · cases h
      · rename_i bs hbs
        cases h
        simp [ih hbs]

/-- Rebuilds every value in key order; the first failure is the answer. -/
def traverse (m : KeyMap α) (f : String → α → Except ε β) : Except ε (KeyMap β) :=
  match h : traverseEntries f m.entries with
  | .error e => .error e
  | .ok entries => .ok ⟨entries, by rw [traverseEntries_keys h]; exact m.ascending⟩

end KeyMap

end Banknote
