import Banknote.Proofs.Json.Reader

/-!
# The order of members

A reader takes the members of an object in the order of the text, but what it reads does not depend on
that order as long as no name occurs twice.  Which fault is met first may depend on it.

* The relation.  `Doc.Reordered` relates documents of the same value: the members of their objects
  may be written in another order, at any depth.
* Readers.  `Doc.IgnoresOrder` says that a reader takes such documents alike, by the same data or by
  some fault.  There is one lemma for each reader, and the readers of the parts are taken to ignore
  the order in their turn.
* Members.  The readers that walk over members do so step by step, and `foldlM_withName_perm` is about
  steps that may be taken in either order.  A step of a map or of a document that is read whole
  stores what it read under a name (`Stores`), a step of a record reads a field into the draft
  (`Record.FieldsCommute`).
* Texts.  `Holds` ties a well-formed text to its document.
-/

namespace Banknote.Json

variable {α δ σ β : Type}

namespace Doc

/-! ## The same value -/

/-- Two members have not the same name. -/
def NamesDiffer (m m' : Except TextFault String × Doc) : Prop :=
  ∀ name, m.1 = .ok name → m'.1 ≠ .ok name

mutual

/-- The same value, but for the order in which the members of an object are written; no object repeats
a name.  Numerals have the same value when the same number is read from them, a whole number not
being a real one, and strings when they hold the same text, however it is escaped.  Strings that hold
no text are not told apart. -/
inductive Reordered : Doc → Doc → Prop
  | null : Reordered .null .null
  | bool (b : Bool) : Reordered (.bool b) (.bool b)
  | num {n n' : Numeral} (hvalue : n.value? = n'.value?) : Reordered (.num n) (.num n')
  | str {s s' : Except TextFault String} (htext : s.toOption = s'.toOption) :
    Reordered (.str s) (.str s')
  | arr {items items' : List Doc} (hitems : ReorderedItems items items') :
    Reordered (.arr items none) (.arr items' none)
  | obj {members middle members' : List (Except TextFault String × Doc)}
    (hnames : members.Pairwise NamesDiffer) (hperm : members.Perm middle)
    (hmembers : ReorderedMembers middle members') :
    Reordered (.obj members none) (.obj members' none)

/-- Items of the same values, one by one. -/
inductive ReorderedItems : List Doc → List Doc → Prop
  | nil : ReorderedItems [] []
  | cons {d d' : Doc} {items items' : List Doc} (hitem : Reordered d d')
    (hrest : ReorderedItems items items') : ReorderedItems (d :: items) (d' :: items')

/-- Members of the same names and values, one by one. -/
inductive ReorderedMembers : List (Except TextFault String × Doc) →
    List (Except TextFault String × Doc) → Prop
  | nil : ReorderedMembers [] []
  | cons {key key' : Except TextFault String} {d d' : Doc}
    {members members' : List (Except TextFault String × Doc)}
    (hkey : key.toOption = key'.toOption) (hvalue : Reordered d d')
    (hrest : ReorderedMembers members members') :
    ReorderedMembers ((key, d) :: members) ((key', d') :: members')

end

variable {members members' : List (Except TextFault String × Doc)}

theorem NamesDiffer.symm {m m' : Except TextFault String × Doc} (h : NamesDiffer m m') :
    NamesDiffer m' m :=
  fun name hm' hm => h name hm hm'

theorem ReorderedItems.length_eq {items items' : List Doc} (h : ReorderedItems items items') :
    items.length = items'.length := by
  induction items generalizing items' with
  | nil =>
    cases h
    rfl
  | cons d items ih =>
    cases h with
    | cons _ hrest => exact congrArg (· + 1) (ih hrest)

theorem ReorderedMembers.length_eq (h : ReorderedMembers members members') :
    members.length = members'.length := by
  induction members generalizing members' with
  | nil =>
    cases h
    rfl
  | cons m members ih =>
    cases h with
    | cons _ _ hrest => exact congrArg (· + 1) (ih hrest)

/-- A reader takes documents of the same value alike: it reads the same data from both, or it finds
some fault in each. -/
def IgnoresOrder (reader : Doc → Except Fault α) : Prop :=
  ∀ {d d' : Doc}, Reordered d d' → (reader d).toOption = (reader d').toOption

/-! ## Simple data -/

theorem toOption_mismatch (want : String) (d : Doc) :
    (d.mismatch want : Except Fault α).toOption = none := by
  cases h : (d.mismatch want : Except Fault α) with
  | error fault => rfl
  | ok a => exact absurd h mismatch_ne_ok

theorem ignoresOrder_text : IgnoresOrder text := by
  have hstr : ∀ s, (text (.str s)).toOption = s.toOption := by
    intro s
    cases s with
    | error fault => rfl
    | ok s => rfl
  intro d d' h
  cases h with
  | str htext => rw [hstr, hstr, htext]
  | _ => simp [text, toOption_mismatch]

theorem ignoresOrder_natural : IgnoresOrder natural := by
  intro d d' h
  cases h with
  | num hvalue => simp only [natural, hvalue]
  | _ => simp [natural, toOption_mismatch]

theorem ignoresOrder_binary (f : BinaryFormat) (want : String) : IgnoresOrder (binary f want) := by
  intro d d' h
  cases h with
  | num hvalue => simp only [binary, hvalue]
  | _ => simp [binary, toOption_mismatch]

theorem ignoresOrder_double : IgnoresOrder double := ignoresOrder_binary .double "f64"

theorem ignoresOrder_unit : IgnoresOrder unit := by
  intro d d' h
  cases h with
  | null => rfl
  | _ => simp [unit, toOption_mismatch]

theorem ignoresOrder_option {reader : Doc → Except Fault α} (h : IgnoresOrder reader) :
    IgnoresOrder (option reader) := by
  intro d d' hd
  have hsome := h hd
  cases hd with
  | null => rfl
  | _ => simp only [option, toOption_map, hsome]

/-! ## Lists -/

theorem toOption_items {item : Doc → Except Fault α} (h : IgnoresOrder item)
    {ds ds' : List Doc} (hds : ReorderedItems ds ds') :
    (items item ds).toOption = (items item ds').toOption := by
  induction ds generalizing ds' with
  | nil =>
    cases hds
    rfl
  | cons d ds ih =>
    cases hds with
    | cons hitem hrest =>
      refine toOption_bind_congr (h hitem) fun a => ?_
      exact toOption_bind_congr (ih hrest) fun _ => rfl

theorem ignoresOrder_list {item : Doc → Except Fault α} (h : IgnoresOrder item) :
    IgnoresOrder (list item) := by
  intro d d' hd
  cases hd with
  | arr hitems => exact toOption_bind_congr (toOption_items h hitems) fun _ => rfl
  | _ => simp [list, toOption_mismatch]

/-! ## Members -/

/-- Steps that may be taken in either order lead to the same end in any order. -/
theorem foldlM_perm {f : σ → β → Option σ} {R : β → β → Prop} (hsymm : ∀ a b, R a b → R b a)
    (hcomm : ∀ a b s, R a b → (f s a).bind (f · b) = (f s b).bind (f · a)) {l l' : List β}
    (hperm : l.Perm l') (hl : l.Pairwise R) (s : σ) : l.foldlM f s = l'.foldlM f s := by
  induction hperm generalizing s with
  | nil => rfl
  | cons a _ ih =>
    have hrest := (List.pairwise_cons.1 hl).2
    rw [List.foldlM_cons, List.foldlM_cons]
    exact congrArg _ (funext fun s' => ih hrest s')
  | swap a b l =>
    have hab : R b a := (List.pairwise_cons.1 hl).1 a List.mem_cons_self
    have hswap := hcomm b a s hab
    simp only [List.foldlM_cons, Option.bind_eq_bind] at hswap ⊢
    rw [← Option.bind_assoc, ← Option.bind_assoc, hswap]
  | trans h _ ih ih' =>
    exact (ih hl s).trans (ih' ((h.pairwise_iff fun {a b} => hsymm a b).1 hl) s)

/-- The step of a member; a member without a name ends the walk. -/
def withName (step : String → Doc → Option σ) (m : Except TextFault String × Doc) : Option σ :=
  m.1.toOption.bind fun key => step key m.2

theorem withName_ok (step : String → Doc → Option σ) (key : String) (d : Doc) :
    withName step (.ok key, d) = step key d := rfl

/-- Members whose steps commute for different names can be taken in any order. -/
theorem foldlM_withName_perm {step : σ → String → Doc → Option σ}
    (hcomm : ∀ s key key' d d', key ≠ key' →
      (step s key d).bind (step · key' d') = (step s key' d').bind (step · key d))
    (hperm : members.Perm members') (hnames : members.Pairwise NamesDiffer) (s : σ) :
    members.foldlM (fun s m => withName (step s) m) s =
      members'.foldlM (fun s m => withName (step s) m) s := by
  refine foldlM_perm (fun _ _ => NamesDiffer.symm) ?_ hperm hnames s
  rintro ⟨key | key, d⟩ ⟨key' | key', d'⟩ s hdiffer
  · rfl
  · simp [withName, Except.toOption]
  · simp [withName, Except.toOption]
  · have hne : key ≠ key' := fun heq => hdiffer key rfl (heq ▸ rfl)
    exact hcomm s key key' d d' hne

/-- A walk over members reads each of them on its own and stores it under its name. -/
structure Stores (walk : σ → List (Except TextFault String × Doc) → Except Fault σ)
    (value : Doc → Except Fault α) (store : σ → String → α → σ) : Prop where
  nil : ∀ s, walk s [] = .ok s
  unnamed : ∀ s fault d rest, walk s ((.error fault, d) :: rest) = failText fault
  named : ∀ s key d rest,
    walk s ((.ok key, d) :: rest) = value d >>= fun a => walk (store s key a) rest

namespace Stores

variable {walk : σ → List (Except TextFault String × Doc) → Except Fault σ}
  {value : Doc → Except Fault α} {store : σ → String → α → σ}

theorem toOption_walk (h : Stores walk value store) (s : σ)
    (members : List (Except TextFault String × Doc)) :
    (walk s members).toOption =
      members.foldlM (fun s m => withName (fun key d => (value d).toOption.map (store s key)) m)
        s := by
  induction members generalizing s with
  | nil =>
    rw [h.nil]
    rfl
  | cons m rest ih =>
    obtain ⟨fault | key, d⟩ := m
    · rw [h.unnamed]
      rfl
    · rw [h.named, toOption_bind, List.foldlM_cons, Option.bind_eq_bind]
      simp only [ih, withName_ok, Option.bind_map]
      rfl

/-- The members can be taken in any order if their values can be stored in any order. -/
theorem perm (h : Stores walk value store)
    (hcomm : ∀ s key key' a a', key ≠ key' →
      store (store s key a) key' a' = store (store s key' a') key a)
    (hperm : members.Perm members') (hnames : members.Pairwise NamesDiffer) (s : σ) :
    (walk s members).toOption = (walk s members').toOption := by
  rw [h.toOption_walk, h.toOption_walk]
  refine foldlM_withName_perm (fun s key key' d d' hne => ?_) hperm hnames s
  cases (value d).toOption with
  | none => cases (value d').toOption <;> rfl
  | some a =>
    cases (value d').toOption with
    | none => rfl
    | some a' => exact congrArg some (hcomm s key key' a a' hne)

end Stores

/-! ## Maps -/

theorem stores_mapMembers (value : Doc → Except Fault α) :
    Stores (mapMembers value) value KeyMap.insert :=
  ⟨fun _ => rfl, fun _ _ _ _ => rfl, fun _ _ _ _ => rfl⟩

theorem mapMembers_perm (value : Doc → Except Fault α) (hperm : members.Perm members')
    (hnames : members.Pairwise NamesDiffer) (m : KeyMap α) :
    (mapMembers value m members).toOption = (mapMembers value m members').toOption :=
  (stores_mapMembers value).perm (fun m _ _ a a' hne => KeyMap.insert_comm hne a a' m) hperm
    hnames m

theorem mapMembers_values {value : Doc → Except Fault α} (h : IgnoresOrder value)
    (hmembers : ReorderedMembers members members') (m : KeyMap α) :
    (mapMembers value m members).toOption = (mapMembers value m members').toOption := by
  induction members generalizing members' m with
  | nil =>
    cases hmembers
    rfl
  | cons member rest ih =>
    cases hmembers with
    | @cons key key' _ _ _ _ hkey hvalue hrest =>
      cases key <;> cases key' <;> cases hkey
      · rfl
      · exact toOption_bind_congr (h hvalue) fun a => ih hrest _

theorem ignoresOrder_map {value : Doc → Except Fault α} (h : IgnoresOrder value) :
    IgnoresOrder (map value) := by
  intro d d' hd
  cases hd with
  | obj hnames hperm hmembers =>
    have hread := (mapMembers_perm value hperm hnames .empty).trans
      (mapMembers_values h hmembers .empty)
    exact toOption_bind_congr hread fun _ => rfl
  | _ => simp [map, toOption_mismatch]

/-! ## Choices -/

theorem toOption_choice_of_length_ne_one (source : Source) (choices : List (String × α))
    (h : members.length ≠ 1) : (choice source choices (.obj members none)).toOption = none := by
  match members, h with
  | [], _ => cases source <;> rfl
  | (.error fault, d) :: m :: rest, _ =>
    cases source with
    | buffered => rfl
    | streamed =>
      cases fault with
      | keyNotString => exact toOption_mismatch _ d
      | _ => rfl
  | (.ok word, d) :: m :: rest, _ =>
    cases source with
    | buffered => rfl
    | streamed =>
      rw [choice, toOption_bind]
      refine Option.bind_eq_none_iff.2 fun a _ => ?_
      rw [toOption_bind]
      exact Option.bind_eq_none_iff.2 fun _ _ => rfl

/-- One member is read alike wherever the data come from. -/
theorem toOption_choice_member (source : Source) (choices : List (String × α))
    (m : Except TextFault String × Doc) :
    (choice source choices (.obj [m] none)).toOption =
      withName (fun word d => (do
        let a ← chosen choices word
        d.unit
        return a : Except Fault α).toOption) m := by
  obtain ⟨fault | word, d⟩ := m
  · cases source with
    | buffered => rfl
    | streamed =>
      cases fault with
      | keyNotString => exact toOption_mismatch _ d
      | _ => rfl
  · cases source <;> rfl

theorem ignoresOrder_choice (source : Source) (choices : List (String × α)) :
    IgnoresOrder (choice source choices) := by
  intro d d' hd
  cases hd with
  | @str s s' htext =>
    cases s <;> cases s' <;> cases htext <;> rfl
  | @obj members middle members' hnames hperm hmembers =>
    have hlength : members.length = members'.length := hperm.length_eq.trans hmembers.length_eq
    -- A choice is a single member, so an object with another number of members is refused.
    by_cases hone : members.length = 1
    · obtain ⟨m, rfl⟩ := List.length_eq_one_iff.1 hone
      cases List.singleton_perm.1 hperm
      cases hmembers with
      | cons hkey hvalue hrest =>
        cases hrest
        rw [toOption_choice_member, toOption_choice_member, withName, withName, hkey]
        refine congrArg _ (funext fun word => ?_)
        refine toOption_bind_congr rfl fun a => ?_
        exact toOption_bind_congr (ignoresOrder_unit hvalue) fun _ => rfl
    · rw [toOption_choice_of_length_ne_one source choices hone,
        toOption_choice_of_length_ne_one source choices (hlength ▸ hone)]
  | num _ =>
    cases source with
    | streamed => rfl
    | buffered => simp only [choice, toOption_mismatch]
  | _ => cases source <;> rfl

/-! ## Documents read whole -/

theorem stores_bufferMembers (depth : Nat) :
    Stores (bufferMembers depth) (buffer depth) fun done key j => KeyMap.put key j done :=
  ⟨fun _ => rfl, fun _ _ _ _ => rfl, fun _ _ _ _ => rfl⟩

theorem bufferMembers_perm (depth : Nat) (hperm : members.Perm members')
    (hnames : members.Pairwise NamesDiffer) (done : List (String × Json)) :
    (bufferMembers depth done members).toOption = (bufferMembers depth done members').toOption :=
  (stores_bufferMembers depth).perm (fun done _ _ j j' hne => KeyMap.put_comm hne j j' done) hperm
    hnames done

-- By induction on how the documents are related, since the members of an object may be objects.
mutual

/-- A document that is read whole comes out with the members of its objects in key order, in
whichever order they are written. -/
theorem toOption_buffer (depth : Nat) {d d' : Doc} :
    Reordered d d' → (buffer depth d).toOption = (buffer depth d').toOption
  | .null => rfl
  | .bool _ => rfl
  | .num hvalue => by simp only [buffer, hvalue]
  | @Reordered.str s s' htext => by cases s <;> cases s' <;> cases htext <;> rfl
  | .arr hitems => by
    rw [buffer, buffer]
    split
    · rfl
    · exact toOption_bind_congr (toOption_bufferItems (depth - 1) hitems) fun _ => rfl
  | .obj hnames hperm hmembers => by
    rw [buffer, buffer]
    split
    · rfl
    · have hread := (bufferMembers_perm (depth - 1) hperm hnames []).trans
        (bufferMembers_values (depth - 1) [] hmembers)
      exact toOption_bind_congr hread fun _ => rfl

theorem toOption_bufferItems (depth : Nat) {items items' : List Doc} :
    ReorderedItems items items' →
      (bufferItems depth items).toOption = (bufferItems depth items').toOption
  | .nil => rfl
  | .cons hitem hrest => by
    rw [bufferItems, bufferItems]
    refine toOption_bind_congr (toOption_buffer depth hitem) fun j => ?_
    exact toOption_bind_congr (toOption_bufferItems depth hrest) fun _ => rfl

theorem bufferMembers_values (depth : Nat) (done : List (String × Json))
    {members members' : List (Except TextFault String × Doc)} :
    ReorderedMembers members members' →
      (bufferMembers depth done members).toOption = (bufferMembers depth done members').toOption
  | .nil => rfl
  | @ReorderedMembers.cons key key' _ _ _ _ hkey hvalue hrest => by
    cases key <;> cases key' <;> cases hkey
    · rfl
    · rw [bufferMembers, bufferMembers]
      refine toOption_bind_congr (toOption_buffer depth hvalue) fun j => ?_
      exact bufferMembers_values depth _ hrest

end

end Doc

/-! ## Records -/

namespace Record

open Doc (IgnoresOrder NamesDiffer Reordered ReorderedItems ReorderedMembers withName)

variable {r : Record δ} {members members' : List (Except TextFault String × Doc)}

/-- Two different fields of a record can be read in either order. -/
def FieldsCommute (r : Record δ) : Prop :=
  ∀ (draft : δ) (key key' : String) (d d' : Doc), key ∈ r.fields → key' ∈ r.fields → key ≠ key' →
    ((r.set draft key d).toOption.bind fun draft => (r.set draft key' d').toOption) =
      (r.set draft key' d').toOption.bind fun draft => (r.set draft key d).toOption

/-- What a member does to the draft of a record that refuses other members. -/
def setField (r : Record δ) (draft : δ) (key : String) (d : Doc) : Option δ :=
  if key ∈ r.fields then (r.set draft key d).toOption else none

/-- The fields read so far matter only where a name is repeated. -/
theorem toOption_readMembers (hclosed : r.closed = true)
    (hnames : members.Pairwise NamesDiffer) {seen : List String}
    (hseen : ∀ m ∈ members, ∀ key ∈ seen, m.1 ≠ .ok key) (draft : δ) :
    (r.readMembers draft seen members).toOption =
      members.foldlM (fun draft m => withName (r.setField draft) m) draft := by
  induction members generalizing seen draft with
  | nil => rfl
  | cons member rest ih =>
    obtain ⟨key | key, d⟩ := member
    · rfl
    · rw [List.pairwise_cons] at hnames
      rw [List.forall_mem_cons] at hseen
      -- No name occurs twice, so no field is refused for having been read.
      have hnew : key ∉ seen := fun hmem => hseen.1 key hmem rfl
      have hrest : ∀ m ∈ rest, ∀ k ∈ key :: seen, m.1 ≠ .ok k := by
        intro m hm
        rw [List.forall_mem_cons]
        exact ⟨hnames.1 m hm key rfl, hseen.2 m hm⟩
      rw [readMembers, List.foldlM_cons, Doc.withName_ok, setField]
      by_cases hfield : key ∈ r.fields
      · rw [if_pos (by simpa using hfield), if_neg (by simpa using hnew), if_pos hfield,
          toOption_bind]
        exact congrArg _ (funext fun draft => ih hnames.2 hrest draft)
      · rw [if_neg (by simpa using hfield), if_pos hclosed, if_neg hfield]
        rfl

theorem readMembers_perm (hclosed : r.closed = true) (hfields : r.FieldsCommute)
    (hperm : members.Perm members') (hnames : members.Pairwise NamesDiffer) (draft : δ) :
    (r.readMembers draft [] members).toOption = (r.readMembers draft [] members').toOption := by
  have hnames' := (hperm.pairwise_iff fun {_ _} => NamesDiffer.symm).1 hnames
  rw [toOption_readMembers hclosed hnames (by simp), toOption_readMembers hclosed hnames' (by simp)]
  refine Doc.foldlM_withName_perm (fun draft key key' d d' hne => ?_) hperm hnames draft
  by_cases hkey : key ∈ r.fields
  · by_cases hkey' : key' ∈ r.fields
    · simpa only [setField, if_pos hkey, if_pos hkey'] using
        hfields draft key key' d d' hkey hkey' hne
    · simp [setField, hkey']
  · simp [setField, hkey]

theorem readMembers_values (hclosed : r.closed = true)
    (hset : ∀ draft field, IgnoresOrder (r.set draft field))
    (hmembers : ReorderedMembers members members') (draft : δ) (seen : List String) :
    (r.readMembers draft seen members).toOption = (r.readMembers draft seen members').toOption := by
  induction members generalizing members' draft seen with
  | nil =>
    cases hmembers
    rfl
  | cons member rest ih =>
    cases hmembers with
    | @cons key key' _ _ _ _ hkey hvalue hrest =>
      cases key <;> cases key' <;> cases hkey
      · rfl
      · rw [readMembers, readMembers, if_pos hclosed, if_pos hclosed]
        split
        · split
          · rfl
          · exact toOption_bind_congr (hset draft _ hvalue) fun draft => ih hrest draft _
        · rfl

theorem toOption_readItems (hset : ∀ draft field, IgnoresOrder (r.set draft field))
    {items items' : List Doc} (hitems : ReorderedItems items items') (draft : δ)
    (fields : List String) :
    (r.readItems draft fields items).toOption = (r.readItems draft fields items').toOption := by
  induction items generalizing items' draft fields with
  | nil =>
    cases hitems
    rfl
  | cons d rest ih =>
    cases hitems with
    | cons hitem hrest =>
      cases fields with
      | nil => rfl
      | cons field fields =>
        exact toOption_bind_congr (hset draft field hitem) fun draft => ih hrest draft fields

/-- A record that refuses other members ignores their order when each field does, and when its fields
can be read in either order. -/
theorem ignoresOrder_read (hclosed : r.closed = true)
    (hset : ∀ draft field, IgnoresOrder (r.set draft field)) (hfields : r.FieldsCommute)
    (empty : δ) (finish : Form → δ → Except Fault α) : IgnoresOrder (r.read empty finish) := by
  intro d d' hd
  cases hd with
  | arr hitems =>
    simp only [read, hitems.length_eq]
    exact toOption_bind_congr (toOption_readItems hset hitems empty r.fields) fun _ => rfl
  | obj hnames hperm hmembers =>
    have hread := (readMembers_perm hclosed hfields hperm hnames empty).trans
      (readMembers_values hclosed hset hmembers empty [])
    exact toOption_bind_congr hread fun _ => rfl
  | _ => simp [read, Doc.toOption_mismatch]

end Record

/-! ## Texts -/

/-- A text holds a document: it is well-formed, and the document is what is written there. -/
def Holds (text : String) (d : Doc) : Prop :=
  ∃ rest, scan text.toList = ⟨d, some rest⟩ ∧ skipSpace rest = []

theorem Holds.readText_eq {text : String} {d : Doc} (h : Holds text d)
    (reader : Doc → Except Fault α) : readText reader text.toList = reader d := by
  obtain ⟨rest, hscan, hspace⟩ := h
  rw [readText, hscan]
  cases reader d with
  | error fault => rfl
  | ok a => simp [hspace]

theorem holds_compact {j : Json} (h : j.WellFormed) : Holds j.compact (toDoc j) := by
  refine ⟨[], ?_, rfl⟩
  rw [compact, String.toList_ofList, compactText_eq 0, scan_spacedText Spacing.blank_tight h]

end Banknote.Json
