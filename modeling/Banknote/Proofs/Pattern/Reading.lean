import Banknote.Pattern.Program

/-!
# What the reader makes of a pattern

`Expr.Built engine features sets refers e` says how an expression may be made up: which groups it may
set, which ones it may refer to, and that whatever the linear engine does not know occurs for the
other engine only.

* Parts.  A lemma for each reader of a part: `built_atom`, `built_quantified`, `built_opening`.
* Patterns.  `made_branches`, `made_parts`, `made_enclosed` and `made_conditional` go together, since
  groups stand in groups; the number of groups that were opened never goes down.
  `built_readPattern` is about whole patterns.
* References.  `built_references`: an expression refers to its references only.
  `Built.of_isSelfContained`: a self-contained expression is made as for the linear engine.
* Compiling.  `Node.Inherited` are the properties of nodes that compiling keeps: its `plain` and
  `tried` give them to the nodes of an expression, `inherited_compile` to programs.
-/

namespace Banknote.Pattern

/-- What ties a match to the search that finds it. -/
inductive Feature where
  /-- The reported start of the match is moved. -/
  | movedStart
  /-- It is asked where the search started. -/
  | searchStart
  deriving DecidableEq

/-- The expressions that a reader for an engine makes, given which features may be used, which groups
may be set and which ones referred to. -/
inductive Expr.Built (engine : Engine) (features : Feature → Prop) (sets refers : Nat → Prop) :
    Expr → Prop
  | empty : Built engine features sets refers .empty
  | chars (set : CharSet) : Built engine features sets refers (.chars set)
  | assertion (a : Assertion) : Built engine features sets refers (.assertion a)
  | concat {parts : List Expr} (hparts : ∀ e ∈ parts, Built engine features sets refers e) :
    Built engine features sets refers (.concat parts)
  | alternatives {branches : List Expr}
    (hbranches : ∀ e ∈ branches, Built engine features sets refers e) :
    Built engine features sets refers (.alternatives branches)
  | times {body : Expr} (hbody : Built engine features sets refers body) (least : Nat)
    (most : Option Nat) (greedy : Bool) :
    Built engine features sets refers (.times body least most greedy)
  | group {index : Nat} {body : Expr} (hindex : sets index)
    (hbody : Built engine features sets refers body) :
    Built engine features sets refers (.group index body)
  | ahead (hengine : engine = .backtracking) (negative : Bool) {body : Expr}
    (hbody : Built engine features sets refers body) :
    Built engine features sets refers (.ahead negative body)
  | behind (hengine : engine = .backtracking) (negative : Bool) {body : Expr}
    (hbody : Built engine features sets refers body) :
    Built engine features sets refers (.behind negative body)
  | backref (hengine : engine = .backtracking) {index : Nat} (hindex : refers index) :
    Built engine features sets refers (.backref index)
  | atomic (hengine : engine = .backtracking) {body : Expr}
    (hbody : Built engine features sets refers body) :
    Built engine features sets refers (.atomic body)
  | keep (hengine : engine = .backtracking) (hfeature : features .movedStart) :
    Built engine features sets refers .keep
  | searchStart (hengine : engine = .backtracking) (hfeature : features .searchStart) :
    Built engine features sets refers .searchStart
  | groupSet (hengine : engine = .backtracking) {index : Nat} (hindex : refers index) :
    Built engine features sets refers (.groupSet index)
  | conditional (hengine : engine = .backtracking) {condition yes no : Expr}
    (hcondition : Built engine features sets refers condition)
    (hyes : Built engine features sets refers yes) (hno : Built engine features sets refers no) :
    Built engine features sets refers (.conditional condition yes no)

/-- The groups from the first one to a last one. -/
def UpTo (count index : Nat) : Prop := 0 < index ∧ index ≤ count

/-- The expressions that a reader for an engine makes out of the first so many groups. -/
abbrev Expr.BuiltUpTo (engine : Engine) (count : Nat) (e : Expr) : Prop :=
  e.Built engine (fun _ => True) (UpTo count) fun _ => True

namespace Expr

variable {engine : Engine} {features : Feature → Prop} {sets refers : Nat → Prop} {count more : Nat}

/-- Groups that come later do no harm. -/
theorem BuiltUpTo.mono {e : Expr} (h : e.BuiltUpTo engine count) (hle : count ≤ more) :
    e.BuiltUpTo engine more := by
  induction h with
  | empty => exact .empty
  | chars set => exact .chars set
  | assertion a => exact .assertion a
  | concat _ ih => exact .concat ih
  | alternatives _ ih => exact .alternatives ih
  | times _ least most greedy ih => exact .times ih least most greedy
  | group hindex _ ih => exact .group ⟨hindex.1, Nat.le_trans hindex.2 hle⟩ ih
  | ahead hengine negative _ ih => exact .ahead hengine negative ih
  | behind hengine negative _ ih => exact .behind hengine negative ih
  | backref hengine hindex => exact .backref hengine hindex
  | atomic hengine _ ih => exact .atomic hengine ih
  | keep hengine hfeature => exact .keep hengine hfeature
  | searchStart hengine hfeature => exact .searchStart hengine hfeature
  | groupSet hengine hindex => exact .groupSet hengine hindex
  | conditional hengine _ _ _ ihc ihy ihn => exact .conditional hengine ihc ihy ihn

theorem built_seq {parts : List Expr} (h : ∀ e ∈ parts, e.Built engine features sets refers) :
    (seq parts).Built engine features sets refers := by
  match parts with
  | [] => exact .empty
  | [e] => exact h e List.mem_cons_self
  | _ :: _ :: _ => exact .concat h

theorem built_choice {branches : List Expr}
    (h : ∀ e ∈ branches, e.Built engine features sets refers) :
    (choice branches).Built engine features sets refers := by
  match branches with
  | [] => exact .alternatives h
  | [e] => exact h e List.mem_cons_self
  | _ :: _ :: _ => exact .alternatives h

end Expr

namespace Reader

open Banknote.Pattern.Expr (BuiltUpTo)

variable {engine : Engine} {flags : Flags} {cur cur' : Cursor} {text rest : List Char} {e e' : Expr}

/-! ## Parts -/

theorem built_marked {count : Nat} (h : BuiltUpTo engine count e) (least : Nat) (most : Option Nat)
    (text : List Char) : BuiltUpTo engine count (marked engine flags e least most text).1 := by
  have htimes := fun greedy => h.times least most greedy
  unfold marked
  split
  dsimp only
  split
  · exact .atomic rfl (htimes _)
  · exact htimes _

theorem built_quantified {count fuel : Nat} (h : BuiltUpTo engine count e)
    (hread : quantified engine flags fuel e text = some (e', rest)) :
    BuiltUpTo engine count e' := by
  induction fuel generalizing e text with
  | zero => cases hread
  | succ fuel ih =>
    unfold quantified at hread
    obtain ⟨text', _, hread⟩ := Option.bind_eq_some_iff.1 hread
    split at hread
    · split at hread
      · cases hread
      · cases hread
        exact h
    · rename_i least most _ _
      split at hread
      · obtain ⟨text'', _, hread⟩ := Option.bind_eq_some_iff.1 hread
        exact ih (built_marked h least most text'') hread
      · split at hread
        · obtain ⟨text'', _, hread⟩ := Option.bind_eq_some_iff.1 hread
          have hmarked : BuiltUpTo engine count (marked engine flags e least most text'').1 :=
            built_marked h least most text''
          rw [Option.some.inj hread] at hmarked
          exact hmarked
        · cases hread

/-- An expression was read, and no group was taken back. -/
structure Made (engine : Engine) (cur : Cursor) (e : Expr) (cur' : Cursor) : Prop where
  groups_le : cur.groups ≤ cur'.groups
  built : BuiltUpTo engine cur'.groups e

theorem made_reference (hengine : engine = .backtracking) {index : Nat}
    (hcur : cur'.groups = cur.groups) (h : reference index = some e) :
    Made engine cur e cur' := by
  unfold reference at h
  split at h
  · cases h
  · cases h
    exact ⟨Nat.le_of_eq hcur.symm, .backref hengine trivial⟩

theorem made_namedReference (hengine : engine = .backtracking) {close : Char}
    (h : namedReference close cur text = some (e, cur')) : Made engine cur e cur' := by
  unfold namedReference at h
  obtain ⟨⟨n, rest⟩, _, h⟩ := Option.bind_eq_some_iff.1 h
  have hindex : ∀ index, ((reference index).bind fun e => some (e, { cur with rest })) =
      some (e, cur') → Made engine cur e cur' := by
    intro index hread
    obtain ⟨e', hreference, hread⟩ := Option.bind_eq_some_iff.1 hread
    cases hread
    exact made_reference hengine rfl hreference
  dsimp only at h
  split at h
  · exact hindex _ h
  · split at h
    · exact hindex _ h
    · cases h

theorem made_relativeReference (hengine : engine = .backtracking) {close : Char}
    (h : relativeReference close cur text = some (e, cur')) : Made engine cur e cur' := by
  unfold relativeReference at h
  obtain ⟨⟨back, rest⟩, _, h⟩ := Option.bind_eq_some_iff.1 h
  dsimp only at h
  split at h
  · split at h
    · cases h
      exact ⟨Nat.le_refl _, .backref hengine trivial⟩
    · cases h
  · cases h

theorem made_delimitedReference (hengine : engine = .backtracking)
    (h : delimitedReference cur text = some (e, cur')) : Made engine cur e cur' := by
  unfold delimitedReference at h
  split at h
  · obtain ⟨close, _, h⟩ := Option.bind_eq_some_iff.1 h
    exact made_relativeReference hengine h
  · obtain ⟨close, _, h⟩ := Option.bind_eq_some_iff.1 h
    exact made_namedReference hengine h
  · cases h

theorem made_backtrackingEscape (hengine : engine = .backtracking)
    (h : backtrackingEscape cur text = some (e, cur')) : Made engine cur e cur' := by
  unfold backtrackingEscape at h
  split at h
  · cases h
    exact ⟨Nat.le_refl _, .keep hengine trivial⟩
  · cases h
    exact ⟨Nat.le_refl _, .searchStart hengine trivial⟩
  · cases h
    refine ⟨Nat.le_refl _, .ahead hengine false (.concat ?_)⟩
    intro part hpart
    rcases List.mem_cons.1 hpart with rfl | hpart
    · exact .times (.chars _) 0 none true
    · obtain rfl := List.mem_singleton.1 hpart
      exact .assertion _
  · exact made_delimitedReference hengine h
  · split at h
    · obtain ⟨e', hreference, h⟩ := Option.map_eq_some_iff.1 h
      cases h
      exact made_reference hengine rfl hreference
    · cases h

theorem made_escapeExpr (h : escapeExpr engine flags cur text = some (e, cur')) :
    Made engine cur e cur' := by
  unfold escapeExpr at h
  split at h
  · cases h
  · split at h
    · split at h
      · obtain ⟨_, _, h⟩ := Option.map_eq_some_iff.1 h
        cases h
        exact ⟨Nat.le_refl _, .assertion _⟩
      · cases h
        exact ⟨Nat.le_refl _, .assertion _⟩
    · cases h
      exact ⟨Nat.le_refl _, .assertion _⟩
    · split at h
      · rename_i result hresult
        cases h
        split at hresult
        · rename_i hengine
          exact made_backtrackingEscape hengine hresult
        · cases hresult
      · split at h
        · cases h
          exact ⟨Nat.le_refl _, .chars _⟩
        · cases h
          exact ⟨Nat.le_refl _, .chars _⟩
        · cases h

theorem made_atom (h : atom engine flags cur = some (e, cur')) : Made engine cur e cur' := by
  unfold atom at h
  split at h
  · cases h
  · cases h
    exact ⟨Nat.le_refl _, .chars _⟩
  · cases h
    exact ⟨Nat.le_refl _, .assertion _⟩
  · cases h
    exact ⟨Nat.le_refl _, .assertion _⟩
  · exact made_escapeExpr h
  · obtain ⟨_, _, h⟩ := Option.map_eq_some_iff.1 h
    cases h
    exact ⟨Nat.le_refl _, .chars _⟩
  · cases h
    exact ⟨Nat.le_refl _, .chars _⟩

/-- What an opening parenthesis may open at a cursor. -/
def Opening.Fits (engine : Engine) (cur : Cursor) : Opening → Prop
  | .capture cur' | .plain _ cur' | .flags _ cur' => cur.groups ≤ cur'.groups
  | .conditional cur' => engine = .backtracking ∧ cur.groups ≤ cur'.groups
  | .wrap make cur' => cur.groups ≤ cur'.groups ∧
    ∀ count body, BuiltUpTo engine count body → BuiltUpTo engine count (make body)
  | .expr e cur' => Made engine cur e cur'

theorem groups_newName (h : newName engine cur text = some cur') : cur.groups ≤ cur'.groups := by
  unfold newName at h
  obtain ⟨⟨n, rest⟩, _, h⟩ := Option.bind_eq_some_iff.1 h
  dsimp only at h
  split at h
  · cases h
  · cases h
    exact Nat.le_refl _

theorem fits_question {o : Opening} (h : question engine flags cur text = some o) :
    o.Fits engine cur := by
  unfold question at h
  split at h
  · cases h
    exact ⟨Nat.le_refl _, fun _ _ hbody => .ahead rfl false hbody⟩
  · cases h
    exact ⟨Nat.le_refl _, fun _ _ hbody => .ahead rfl true hbody⟩
  · cases h
    exact ⟨Nat.le_refl _, fun _ _ hbody => .behind rfl false hbody⟩
  · cases h
    exact ⟨Nat.le_refl _, fun _ _ hbody => .behind rfl true hbody⟩
  · cases h
    exact ⟨Nat.le_refl _, fun _ _ hbody => .atomic rfl hbody⟩
  · cases h
    exact ⟨rfl, Nat.le_refl _⟩
  · obtain ⟨⟨e, cur'⟩, hreference, rfl⟩ := Option.map_eq_some_iff.1 h
    exact made_namedReference rfl hreference
  · obtain ⟨cur', hname, rfl⟩ := Option.map_eq_some_iff.1 h
    exact groups_newName hname
  · obtain ⟨cur', hname, rfl⟩ := Option.map_eq_some_iff.1 h
    exact groups_newName hname
  · split at h
    · cases h
      exact Nat.le_refl _
    · cases h
      exact Nat.le_refl _
    · cases h

theorem fits_opening {o : Opening} (h : opening engine flags cur text = some o) :
    o.Fits engine cur := by
  unfold opening at h
  split at h
  · exact fits_question h
  · cases h
    exact Nat.le_refl _

theorem groups_closing (h : closing cur = some cur') : cur'.groups = cur.groups := by
  unfold closing at h
  split at h
  · cases h
    rfl
  · cases h

theorem made_groupCondition (hengine : engine = .backtracking)
    (h : groupCondition cur = some (some (e, cur'))) : Made engine cur e cur' := by
  unfold groupCondition at h
  split at h
  · split at h
    · obtain ⟨⟨index, rest⟩, _, h⟩ := Option.bind_eq_some_iff.1 h
      obtain ⟨e', hreference, h⟩ := Option.bind_eq_some_iff.1 h
      cases h
      exact made_reference hengine rfl hreference
    · split at h
      · obtain ⟨result, hreference, hresult⟩ := Option.map_eq_some_iff.1 h
        cases hresult
        exact made_delimitedReference hengine hreference
      · cases h
  · cases h

theorem built_asked (hengine : engine = .backtracking) {count : Nat}
    (h : BuiltUpTo engine count e) (enclosing : List Nat) :
    BuiltUpTo engine count (asked enclosing e) := by
  unfold asked
  split
  · split
    · exact .empty
    · exact .groupSet hengine trivial
  · exact h

theorem built_consequences {count : Nat} (h : BuiltUpTo engine count e) :
    BuiltUpTo engine count (consequences e).1 ∧ BuiltUpTo engine count (consequences e).2 := by
  unfold consequences
  split
  · cases h with
    | alternatives hbranches =>
      obtain ⟨hyes, hno⟩ := List.forall_mem_cons.1 hbranches
      exact ⟨hyes, Expr.built_choice hno⟩
  · exact ⟨h, .empty⟩

theorem built_conditionalExpr (hengine : engine = .backtracking) {count : Nat}
    (hcondition : BuiltUpTo engine count e) (hbody : BuiltUpTo engine count e') :
    BuiltUpTo engine count (conditionalExpr e e') := by
  obtain ⟨hyes, hno⟩ := built_consequences hbody
  unfold conditionalExpr
  split
  · exact hcondition
  · rename_i hparts
    rw [hparts] at hyes hno
    exact .conditional hengine hcondition hyes hno

/-! ## Patterns -/

theorem Made.of_le {cur₁ : Cursor} (h : Made engine cur₁ e cur') (hle : cur.groups ≤ cur₁.groups) :
    Made engine cur e cur' :=
  ⟨Nat.le_trans hle h.groups_le, h.built⟩

/-- Parts that were read before stay parts when groups are added. -/
theorem built_cons {done : List Expr} (hdone : ∀ e ∈ done, BuiltUpTo engine cur.groups e)
    (hle : cur.groups ≤ cur'.groups) (he : BuiltUpTo engine cur'.groups e) :
    ∀ part ∈ e :: done, BuiltUpTo engine cur'.groups part := by
  intro part hpart
  rcases List.mem_cons.1 hpart with rfl | hpart
  · exact he
  · exact (hdone part hpart).mono hle

/-- What the readers of branches, of parts and of groups make, given some fuel. -/
structure Makes (engine : Engine) (fuel : Nat) : Prop where
  branches {depth : Nat} {flags : Flags} {done : List Expr} {cur : Cursor} {e : Expr}
    {cur' : Cursor} (hdone : ∀ e ∈ done, BuiltUpTo engine cur.groups e)
    (h : branches engine fuel depth flags done cur = some (e, cur')) : Made engine cur e cur'
  parts {depth : Nat} {flags : Flags} {done : List Expr} {cur : Cursor} {e : Expr} {flags' : Flags}
    {cur' : Cursor} (hdone : ∀ e ∈ done, BuiltUpTo engine cur.groups e)
    (h : parts engine fuel depth flags done cur = some (e, flags', cur')) : Made engine cur e cur'
  enclosed {depth : Nat} {flags : Flags} {cur : Cursor} {e : Expr} {cur' : Cursor}
    (h : enclosed engine fuel depth flags cur = some (e, cur')) : Made engine cur e cur'
  condition {depth : Nat} {flags : Flags} {cur : Cursor} {e : Expr} {cur' : Cursor}
    (hengine : engine = .backtracking)
    (h : condition engine fuel depth flags cur = some (e, cur')) : Made engine cur e cur'
  conditional {depth : Nat} {flags : Flags} {cur : Cursor} {e : Expr} {cur' : Cursor}
    (hengine : engine = .backtracking)
    (h : conditional engine fuel depth flags cur = some (e, cur')) : Made engine cur e cur'

section

variable {fuel depth : Nat} {done : List Expr} (ih : Makes engine fuel)

include ih

theorem made_enclosed (h : enclosed engine (fuel + 1) depth flags cur = some (e, cur')) :
    Made engine cur e cur' := by
  unfold enclosed at h
  split at h
  · cases h
  · obtain ⟨⟨body, cur₁⟩, hbody, h⟩ := Option.bind_eq_some_iff.1 h
    obtain ⟨cur₂, hclosing, h⟩ := Option.bind_eq_some_iff.1 h
    cases h
    have hmade := ih.branches (fun _ hmem => by cases hmem) hbody
    have hgroups := groups_closing hclosing
    exact ⟨hgroups ▸ hmade.groups_le, hgroups ▸ hmade.built⟩

theorem made_condition (hengine : engine = .backtracking)
    (h : condition engine (fuel + 1) depth flags cur = some (e, cur')) :
    Made engine cur e cur' := by
  unfold condition at h
  split at h
  · cases h
  · rename_i result hgroup
    cases h
    exact made_groupCondition hengine hgroup
  · exact ih.branches (fun _ hmem => by cases hmem) h

theorem made_conditional (hengine : engine = .backtracking)
    (h : conditional engine (fuel + 1) depth flags cur = some (e, cur')) :
    Made engine cur e cur' := by
  unfold conditional at h
  split at h
  · cases h
  · obtain ⟨⟨asking, cur₁⟩, hcondition, h⟩ := Option.bind_eq_some_iff.1 h
    obtain ⟨cur₂, hclosing₂, h⟩ := Option.bind_eq_some_iff.1 h
    obtain ⟨⟨body, cur₃⟩, hbody, h⟩ := Option.bind_eq_some_iff.1 h
    have hmade := ih.condition hengine hcondition
    have hmore : Made engine cur₂ body cur₃ := ih.branches (fun _ hmem => by cases hmem) hbody
    have hle : cur₁.groups ≤ cur₃.groups := groups_closing hclosing₂ ▸ hmore.groups_le
    dsimp only at h
    split at h
    · cases h
    · obtain ⟨cur₄, hclosing₄, h⟩ := Option.bind_eq_some_iff.1 h
      cases h
      have hgroups := groups_closing hclosing₄
      refine ⟨hgroups ▸ Nat.le_trans hmade.groups_le hle, hgroups ▸ ?_⟩
      exact built_conditionalExpr hengine (built_asked hengine (hmade.built.mono hle) _)
        hmore.built

theorem made_branches (hdone : ∀ e ∈ done, BuiltUpTo engine cur.groups e)
    (h : branches engine (fuel + 1) depth flags done cur = some (e, cur')) :
    Made engine cur e cur' := by
  unfold branches at h
  obtain ⟨⟨part, flags', cur₁⟩, hpart, h⟩ := Option.bind_eq_some_iff.1 h
  have hmade := ih.parts (fun _ hmem => by cases hmem) hpart
  have hmore := built_cons hdone hmade.groups_le hmade.built
  dsimp only at h
  split at h
  · refine Made.of_le (ih.branches ?_ h) hmade.groups_le
    exact hmore
  · split at h
    · cases h
    · cases h
      refine ⟨hmade.groups_le, Expr.built_choice fun branch hbranch => ?_⟩
      exact hmore branch (List.mem_reverse.1 hbranch)

/-- What is read of a part, with its quantifiers, stands before what is read after it. -/
theorem made_rest {cur₁ : Cursor} {flags' : Flags}
    (hdone : ∀ e ∈ done, BuiltUpTo engine cur.groups e) (hmade : Made engine cur e cur₁)
    (h : ((quantified engine flags (cur₁.rest.length + 1) e cur₁.rest).bind fun (e, rest) =>
      parts engine fuel depth flags (e :: done) { cur₁ with rest }) = some (e', flags', cur')) :
    Made engine cur e' cur' := by
  obtain ⟨⟨quantity, rest⟩, hquantified, h⟩ := Option.bind_eq_some_iff.1 h
  have hbuilt := built_quantified hmade.built hquantified
  have hmore := built_cons hdone hmade.groups_le hbuilt
  refine Made.of_le (ih.parts ?_ h) hmade.groups_le
  exact hmore

theorem made_parts {flags' : Flags} (hdone : ∀ e ∈ done, BuiltUpTo engine cur.groups e)
    (h : parts engine (fuel + 1) depth flags done cur = some (e, flags', cur')) :
    Made engine cur e cur' := by
  unfold parts at h
  obtain ⟨text, _, h⟩ := Option.bind_eq_some_iff.1 h
  have hend : Made engine cur (Expr.seq done.reverse) { cur with rest := text } :=
    ⟨Nat.le_refl _, Expr.built_seq fun part hpart => hdone part (List.mem_reverse.1 hpart)⟩
  dsimp only at h
  split at h
  · cases h
  · split at h
    · cases h
      exact hend
    · cases h
      exact hend
    · cases h
      exact hend
    · obtain ⟨o, hopening, h⟩ := Option.bind_eq_some_iff.1 h
      have hfits := fits_opening hopening
      cases o with
      | flags flags cur₁ =>
        refine Made.of_le (ih.parts ?_ h) hfits
        exact fun part hpart => (hdone part hpart).mono hfits
      | expr e₁ cur₁ => exact made_rest ih hdone hfits h
      | conditional cur₁ =>
        obtain ⟨hengine, hle⟩ := hfits
        obtain ⟨⟨e₁, cur₂⟩, hconditional, h⟩ := Option.bind_eq_some_iff.1 h
        exact made_rest ih hdone ((ih.conditional hengine hconditional).of_le hle) h
      | plain inner cur₁ =>
        obtain ⟨⟨body, cur₂⟩, hbody, h⟩ := Option.bind_eq_some_iff.1 h
        exact made_rest ih hdone ((ih.enclosed hbody).of_le hfits) h
      | wrap make cur₁ =>
        obtain ⟨hle, hmake⟩ := hfits
        obtain ⟨⟨body, cur₂⟩, hbody, h⟩ := Option.bind_eq_some_iff.1 h
        have hmade := (ih.enclosed hbody).of_le hle
        exact made_rest ih hdone ⟨hmade.groups_le, hmake _ _ hmade.built⟩ h
      | capture cur₁ =>
        obtain ⟨⟨body, cur₂⟩, hbody, h⟩ := Option.bind_eq_some_iff.1 h
        have hinner := ih.enclosed hbody
        -- The group has the number after those opened before it.
        have hnumber : cur₁.groups + 1 ≤ cur₂.groups := hinner.groups_le
        have hle : cur.groups ≤ cur₁.groups := hfits
        have hgroup : Made engine cur (.group (cur₁.groups + 1) body)
            { cur₂ with enclosing := cur₁.enclosing } :=
          ⟨Nat.le_trans hle (Nat.le_of_succ_le hnumber),
            .group ⟨Nat.succ_pos _, hnumber⟩ hinner.built⟩
        exact made_rest ih hdone hgroup h
    · obtain ⟨⟨e₁, cur₁⟩, hatom, h⟩ := Option.bind_eq_some_iff.1 h
      have hmade := made_atom hatom
      exact made_rest ih hdone (hmade.of_le (Nat.le_refl _)) h

end

theorem makes (fuel : Nat) : Makes engine fuel := by
  induction fuel with
  | zero =>
    constructor
    · intro _ _ _ _ _ _ _ h
      cases h
    · intro _ _ _ _ _ _ _ _ h
      cases h
    · intro _ _ _ _ _ h
      cases h
    · intro _ _ _ _ _ _ h
      cases h
    · intro _ _ _ _ _ _ h
      cases h
  | succ fuel ih =>
    exact ⟨made_branches ih, made_parts ih, made_enclosed ih, made_condition ih,
      made_conditional ih⟩

/-- A pattern that was read is made of its groups and of what the engine knows. -/
theorem built_readPattern {reading : Reading} (h : readPattern engine text = some reading) :
    BuiltUpTo engine reading.groups reading.expr := by
  unfold readPattern at h
  obtain ⟨⟨e, cur⟩, hbranches, h⟩ := Option.bind_eq_some_iff.1 h
  dsimp only at h
  split at h
  · cases h
    exact ((makes _).branches (fun _ hmem => by cases hmem) hbranches).built
  · cases h

end Reader

/-! ## References -/

namespace Expr

variable {engine : Engine} {features : Feature → Prop} {sets refers refers' : Nat → Prop}

theorem references_of_mem {es : List Expr} {e : Expr} (he : e ∈ es) :
    ∀ index ∈ e.references, index ∈ allReferences es := by
  intro index hindex
  induction es with
  | nil => cases he
  | cons e' rest ih =>
    rcases List.mem_cons.1 he with rfl | he
    · exact List.mem_append_left _ hindex
    · exact List.mem_append_right _ (ih he)

/-- An expression refers to its references only. -/
theorem Built.of_references {e : Expr} (h : e.Built engine features sets refers)
    (hrefers : ∀ index ∈ e.references, refers' index) : e.Built engine features sets refers' := by
  induction h with
  | empty => exact .empty
  | chars set => exact .chars set
  | assertion a => exact .assertion a
  | concat _ ih =>
    exact .concat fun e he => ih e he fun index h => hrefers index (references_of_mem he index h)
  | alternatives _ ih =>
    exact .alternatives fun e he =>
      ih e he fun index h => hrefers index (references_of_mem he index h)
  | times _ least most greedy ih => exact .times (ih hrefers) least most greedy
  | group hindex _ ih => exact .group hindex (ih hrefers)
  | ahead hengine negative _ ih => exact .ahead hengine negative (ih hrefers)
  | behind hengine negative _ ih => exact .behind hengine negative (ih hrefers)
  | backref hengine _ => exact .backref hengine (hrefers _ (List.mem_singleton.2 rfl))
  | atomic hengine _ ih => exact .atomic hengine (ih hrefers)
  | keep hengine hfeature => exact .keep hengine hfeature
  | searchStart hengine hfeature => exact .searchStart hengine hfeature
  | groupSet hengine _ => exact .groupSet hengine (hrefers _ (List.mem_singleton.2 rfl))
  | conditional hengine _ _ _ ihc ihy ihn =>
    obtain ⟨hc, hrest⟩ := List.forall_mem_append.1 hrefers
    obtain ⟨hy, hn⟩ := List.forall_mem_append.1 hrest
    exact .conditional hengine (ihc hc) (ihy hy) (ihn hn)

theorem isSelfContained_of_mem {referenced : List Nat} {es : List Expr}
    (h : allSelfContained referenced es = true) {e : Expr} (he : e ∈ es) :
    e.isSelfContained referenced = true := by
  induction es with
  | nil => cases he
  | cons e' rest ih =>
    obtain ⟨hfirst, hrest⟩ := Bool.and_eq_true_iff.1 h
    rcases List.mem_cons.1 he with rfl | he
    · exact hfirst
    · exact ih hrest he

/-- A self-contained expression is made as for the linear engine, and sets no group that is referred
to. -/
theorem Built.of_isSelfContained {referenced : List Nat} {e : Expr}
    (h : e.Built engine features sets refers) (hself : e.isSelfContained referenced = true) :
    e.Built .linear (fun _ => False) (fun index => index ∉ referenced) fun _ => False := by
  induction h with
  | empty => exact .empty
  | chars set => exact .chars set
  | assertion a => exact .assertion a
  | concat _ ih => exact .concat fun e he => ih e he (isSelfContained_of_mem hself he)
  | alternatives _ ih => exact .alternatives fun e he => ih e he (isSelfContained_of_mem hself he)
  | times _ least most greedy ih => exact .times (ih hself) least most greedy
  | group _ _ ih =>
    obtain ⟨hindex, hbody⟩ := Bool.and_eq_true_iff.1 hself
    exact .group (by simpa using hindex) (ih hbody)
  | ahead _ _ _ _ => cases hself
  | behind _ _ _ _ => cases hself
  | backref _ _ => cases hself
  | atomic _ _ _ => cases hself
  | keep _ _ => cases hself
  | searchStart _ _ => cases hself
  | groupSet _ _ => cases hself
  | conditional _ _ _ _ _ _ _ => cases hself

end Expr

/-! ## Compiling -/

/-- The properties of nodes that a node has if its parts have them, what the linear engine does not
know apart. -/
structure Node.Inherited (engine : Engine) (features : Feature → Prop) (sets refers : Nat → Prop)
    (P : Node → Prop) : Prop where
  empty : P .empty
  chars (set : CharSet) : P (.chars set)
  assertion (a : Assertion) : P (.assertion a)
  seq {p q : Node} (hp : P p) (hq : P q) : P (.seq p q)
  alt {p q : Node} (hp : P p) (hq : P q) : P (.alt p q)
  star (greedy : Bool) {p : Node} (hp : P p) : P (.star greedy p)
  plus (greedy : Bool) {p : Node} (hp : P p) : P (.plus greedy p)
  group {index : Nat} {p : Node} (hindex : sets index) (hp : P p) : P (.group index p)
  look (hengine : engine = .backtracking) (negative : Bool) (back : Nat) {p : Node} (hp : P p) :
    P (.look negative back p)
  backref (hengine : engine = .backtracking) {index : Nat} (hindex : refers index) :
    P (.backref index)
  atomic (hengine : engine = .backtracking) {p : Node} (hp : P p) : P (.atomic p)
  keep (hengine : engine = .backtracking) (hfeature : features .movedStart) : P .keep
  searchStart (hengine : engine = .backtracking) (hfeature : features .searchStart) : P .searchStart
  groupSet (hengine : engine = .backtracking) {index : Nat} (hindex : refers index) :
    P (.groupSet index)
  branch (hengine : engine = .backtracking) {condition yes no : Node} (hcondition : P condition)
    (hyes : P yes) (hno : P no) : P (.branch condition yes no)

namespace Node.Inherited

variable {engine : Engine} {features : Feature → Prop} {sets refers : Nat → Prop} {P : Node → Prop}
  (hP : Node.Inherited engine features sets refers P)
  {p rest : Node}

include hP

theorem copies (hp : P p) (hrest : P rest) (n : Nat) : P (p.copies rest n) := by
  induction n with
  | zero => exact hrest
  | succ n ih => exact hP.seq hp ih

theorem optional (hp : P p) (greedy : Bool) : P (Node.optional greedy p) := by
  cases greedy with
  | true => exact hP.alt hp hP.empty
  | false => exact hP.alt hP.empty hp

theorem atMost (hp : P p) (greedy : Bool) (n : Nat) : P (p.atMost greedy n) := by
  induction n with
  | zero => exact hP.empty
  | succ n ih =>
    cases n with
    | zero => exact hP.optional hp greedy
    | succ n => exact hP.optional (hP.seq hp ih) greedy

theorem repeated (hp : P p) (hrest : P rest) (greedy : Bool) (least : Nat) (most : Option Nat) :
    P (Expr.repeated p rest greedy least most) := by
  unfold Expr.repeated
  split
  · exact hP.copies hp hrest least
  · split
    · split
      · exact hP.empty
      · exact hP.copies hp hp _
    · exact hP.copies hp (hP.atMost hp greedy _) least

theorem plainSeq {parts : List Expr} (h : ∀ e ∈ parts, P e.plain) : P (Expr.plainSeq parts) := by
  induction parts with
  | nil => exact hP.empty
  | cons e rest ih =>
    obtain ⟨he, hrest⟩ := List.forall_mem_cons.1 h
    cases rest with
    | nil => exact he
    | cons e' rest => exact hP.seq he (ih hrest)

theorem plainAlt {branches : List Expr} (h : ∀ e ∈ branches, P e.plain) :
    P (Expr.plainAlt branches) := by
  induction branches with
  | nil => exact hP.empty
  | cons e rest ih =>
    obtain ⟨he, hrest⟩ := List.forall_mem_cons.1 h
    cases rest with
    | nil => exact he
    | cons e' rest => exact hP.alt he (ih hrest)

theorem plain {e : Expr} (h : e.Built engine features sets refers) : P e.plain := by
  induction h with
  | empty => exact hP.empty
  | chars set => exact hP.chars set
  | assertion a => exact hP.assertion a
  | concat _ ih => exact hP.plainSeq ih
  | alternatives _ ih => exact hP.plainAlt ih
  | times _ least most greedy ih =>
    have hplus := hP.plus greedy ih
    unfold Expr.plain
    dsimp only
    split
    · split
      · split
        · exact hP.optional hplus greedy
        · exact hplus
      · exact hP.copies ih hplus _
    · exact hP.repeated ih (hP.star greedy ih) greedy least most
  | group hindex _ ih => exact hP.group hindex ih
  | ahead hengine negative _ ih => exact hP.look hengine negative _ ih
  | behind hengine negative _ ih => exact hP.look hengine negative _ ih
  | backref hengine hindex => exact hP.backref hengine hindex
  | atomic hengine _ ih => exact hP.atomic hengine ih
  | keep hengine hfeature => exact hP.keep hengine hfeature
  | searchStart hengine hfeature => exact hP.searchStart hengine hfeature
  | groupSet hengine hindex => exact hP.groupSet hengine hindex
  | conditional hengine _ _ _ ihc ihy ihn => exact hP.branch hengine ihc ihy ihn

theorem triedSeq (hengine : engine = .backtracking) {parts : List Expr}
    (hparts : ∀ e ∈ parts, e.Built engine features sets refers) {referenced : List Nat}
    (h : ∀ e ∈ parts, ∀ last, P (e.tried referenced last)) (last first : Bool) :
    P (Expr.triedSeq referenced last first parts) := by
  induction parts generalizing first with
  | nil => exact hP.empty
  | cons e rest ih =>
    obtain ⟨hbuilt, hbuilts⟩ := List.forall_mem_cons.1 hparts
    obtain ⟨he, hrest⟩ := List.forall_mem_cons.1 h
    unfold Expr.triedSeq
    split
    · exact hP.atomic hengine (hP.plainSeq fun e he => hP.plain (hparts e he))
    · split
      · exact hP.seq (hP.atomic hengine (hP.plain hbuilt)) (ih hbuilts hrest true)
      · exact hP.seq (he false) (ih hbuilts hrest false)

theorem triedAlt {branches : List Expr} {referenced : List Nat}
    (h : ∀ e ∈ branches, ∀ last, P (e.tried referenced last)) (last : Bool) :
    P (Expr.triedAlt referenced last branches) := by
  induction branches with
  | nil => exact hP.empty
  | cons e rest ih =>
    obtain ⟨he, hrest⟩ := List.forall_mem_cons.1 h
    cases rest with
    | nil => exact he last
    | cons e' rest => exact hP.alt (he last) (ih hrest)

theorem triedBehind (hengine : engine = .backtracking) {branches : List Expr}
    {referenced : List Nat} (h : ∀ e ∈ branches, ∀ last, P (e.tried referenced last))
    (negative : Bool) : P (Expr.triedBehind referenced negative branches) := by
  induction branches with
  | nil => exact hP.look hengine _ 0 hP.empty
  | cons e rest ih =>
    obtain ⟨he, hrest⟩ := List.forall_mem_cons.1 h
    have hfirst := hP.look hengine negative (e.width?.getD 0) (he true)
    unfold Expr.triedBehind
    dsimp only
    split
    · exact hP.seq hfirst (ih hrest)
    · exact hP.alt hfirst (ih hrest)

/-- An expression is matched in one way only, or else taken apart. -/
theorem wholeOr (hengine : engine = .backtracking) {e : Expr}
    (he : e.Built engine features sets refers) (referenced : List Nat) (last : Bool) (hp : P p) :
    P (if last && e.isSelfContained referenced then .atomic e.plain else p) := by
  split
  · exact hP.atomic hengine (hP.plain he)
  · exact hp

/-- A look back at a choice is taken apart into its branches, so the branches are spoken of too. -/
theorem tried_branches (hengine : engine = .backtracking) (referenced : List Nat) {e : Expr}
    (h : e.Built engine features sets refers) :
    (∀ last, P (e.tried referenced last)) ∧
      ∀ branches, e = .alternatives branches →
        ∀ b ∈ branches, ∀ last, P (b.tried referenced last) := by
  have happart {e : Expr} (he : e.Built engine features sets refers) {last : Bool} {p : Node}
      (hp : P p) := hP.wholeOr hengine he referenced last hp
  induction h with
  | empty => exact ⟨fun last => happart .empty hP.empty, fun _ h => by cases h⟩
  | chars set => exact ⟨fun last => happart (.chars set) (hP.chars set), fun _ h => by cases h⟩
  | assertion a =>
    exact ⟨fun last => happart (.assertion a) (hP.assertion a), fun _ h => by cases h⟩
  | concat hparts ih =>
    refine ⟨fun last => ?_, fun _ h => by cases h⟩
    unfold Expr.tried
    exact happart (.concat hparts) (hP.triedSeq hengine hparts (fun e he => (ih e he).1) last true)
  | alternatives hbranches ih =>
    constructor
    · intro last
      unfold Expr.tried
      exact happart (.alternatives hbranches) (hP.triedAlt (fun e he => (ih e he).1) last)
    · intro branches heq b hb
      cases heq
      exact (ih b hb).1
  | @times body hbody least most greedy ih =>
    refine ⟨fun last => ?_, fun _ h => by cases h⟩
    have htried := ih.1 (last && least == 0 && most == some 1)
    unfold Expr.tried
    exact happart (hbody.times least most greedy)
      (hP.repeated htried (hP.star greedy htried) greedy least most)
  | group hindex hbody ih =>
    refine ⟨fun last => ?_, fun _ h => by cases h⟩
    unfold Expr.tried
    exact happart (.group hindex hbody) (hP.group hindex (ih.1 last))
  | ahead hengine negative hbody ih =>
    refine ⟨fun last => ?_, fun _ h => by cases h⟩
    unfold Expr.tried
    exact happart (.ahead hengine negative hbody) (hP.look hengine negative 0 (ih.1 true))
  | @behind hengine negative body hbody ih =>
    refine ⟨fun last => ?_, fun _ h => by cases h⟩
    unfold Expr.tried
    refine happart (.behind hengine negative hbody) ?_
    dsimp only
    split
    · exact hP.triedBehind hengine (ih.2 _ rfl) negative
    · exact hP.look hengine negative _ (ih.1 true)
  | backref hengine hindex =>
    exact ⟨fun last => happart (.backref hengine hindex) (hP.backref hengine hindex),
      fun _ h => by cases h⟩
  | atomic hengine hbody ih =>
    refine ⟨fun last => ?_, fun _ h => by cases h⟩
    unfold Expr.tried
    exact happart (.atomic hengine hbody) (hP.atomic hengine (ih.1 true))
  | keep hengine hfeature =>
    exact ⟨fun last => happart (.keep hengine hfeature) (hP.keep hengine hfeature),
      fun _ h => by cases h⟩
  | searchStart hengine hfeature =>
    exact ⟨fun last => happart (.searchStart hengine hfeature) (hP.searchStart hengine hfeature),
      fun _ h => by cases h⟩
  | groupSet hengine hindex =>
    exact ⟨fun last => happart (.groupSet hengine hindex) (hP.groupSet hengine hindex),
      fun _ h => by cases h⟩
  | conditional hengine hc hy hn ihc ihy ihn =>
    refine ⟨fun last => ?_, fun _ h => by cases h⟩
    unfold Expr.tried
    exact happart (.conditional hengine hc hy hn)
      (hP.branch hengine (ihc.1 last) (ihy.1 last) (ihn.1 last))

theorem tried (hengine : engine = .backtracking) (referenced : List Nat) {e : Expr}
    (h : e.Built engine features sets refers) (last : Bool) : P (e.tried referenced last) :=
  (hP.tried_branches hengine referenced h).1 last

end Node.Inherited

/-- What nodes inherit from their parts holds of the program that an expression is compiled to. -/
theorem inherited_compile {engine : Engine} {features : Feature → Prop} {sets refers : Nat → Prop}
    {source : List Char} {reading : Reader.Reading} {program : Program} {P : Node → Prop}
    (hread : Reader.readPattern engine source = some reading)
    (hprogram : Program.compile? engine source = some program)
    (hbuilt : reading.expr.Built engine features sets refers)
    (hP : Node.Inherited engine features sets refers P) : P program.node := by
  rw [Program.compile?, hread] at hprogram
  cases hprogram
  dsimp only
  split
  · exact hP.plain hbuilt
  · rename_i hengine
    cases engine with
    | linear => exact absurd (.inl rfl) hengine
    | backtracking => exact hP.tried rfl _ hbuilt false

end Banknote.Pattern
