import FunctionService.Proofs.Checks

/-!
# What the text of an expression groups

Where the text of an expression stands next to `?:`, grouping is at stake. The right operand of `?:` and a
list passed with `...` are parenthesized where they need it, but the target of a field never is. In a
text a field belongs to the operand in front of it, so a field of `a ?: b` is written as
`a ?: b` with a field of `b` alone.

`Expression.regrouped` is the expression that a text stands for: every such field has moved to the last
operand. It is the expression that was written exactly if no field of a `?:` occurs in that
(`regrouped_eq_self_iff`).
-/

namespace FunctionService

/-! ## Parts that do not occur -/

namespace Expression

/-- The expressions that an expression is made from. -/
def children : Expression → List Expression
  | .fieldAccess target _ => [target]
  | .elvis left right => [left, right]
  | .list items => items
  | .call _ arguments => arguments.map Argument.value
  | .new _ arguments => arguments.map Argument.value
  | .name _ | .int _ | .source _ => []

theorem partOf_of_mem_children {part child e : Expression} (hchild : child ∈ e.children)
    (h : part.PartOf child) : part.PartOf e := by
  cases e with
  | fieldAccess target field =>
      obtain rfl := List.mem_singleton.mp hchild
      exact .target h
  | elvis left right =>
      rcases List.mem_cons.mp hchild with rfl | hchild
      · exact .left h
      · obtain rfl := List.mem_singleton.mp hchild
        exact .right h
  | list items => exact .item hchild h
  | call function arguments =>
      obtain ⟨a, ha, rfl⟩ := List.mem_map.mp hchild
      exact .argument ha h
  | new typeName arguments =>
      obtain ⟨a, ha, rfl⟩ := List.mem_map.mp hchild
      exact .constructed ha h
  | name _ | int _ | source _ => cases hchild

theorem PartOf.eq_or_child {part e : Expression} (h : part.PartOf e) :
    part = e ∨ ∃ child ∈ e.children, part.PartOf child := by
  cases h with
  | self => exact Or.inl rfl
  | target h => exact Or.inr ⟨_, List.mem_cons_self, h⟩
  | left h => exact Or.inr ⟨_, List.mem_cons_self, h⟩
  | right h => exact Or.inr ⟨_, List.mem_cons_of_mem _ List.mem_cons_self, h⟩
  | item hitem h => exact Or.inr ⟨_, hitem, h⟩
  | argument ha h => exact Or.inr ⟨_, List.mem_map_of_mem ha, h⟩
  | constructed ha h => exact Or.inr ⟨_, List.mem_map_of_mem ha, h⟩

/-- Nothing of a kind occurs in an expression, at any depth. -/
def Without (kind : Expression → Bool) (e : Expression) : Prop :=
  ∀ part : Expression, part.PartOf e → kind part = false

/-- Something occurs in an expression if it is the expression itself or occurs in what that is made from. -/
theorem without_iff {kind : Expression → Bool} {e : Expression} :
    e.Without kind ↔ kind e = false ∧ ∀ child ∈ e.children, child.Without kind := by
  constructor
  · intro h
    exact ⟨h e .self, fun child hchild part hpart => h part (partOf_of_mem_children hchild hpart)⟩
  · rintro ⟨hself, hchildren⟩ part hpart
    rcases hpart.eq_or_child with rfl | ⟨child, hchild, hpart⟩
    · exact hself
    · exact hchildren child hchild part hpart

/-- Text whose structure is not known. -/
def isSource : Expression → Bool
  | .source _ => true
  | _ => false

/-- A field of a `?:`. -/
def isFieldOfElvis : Expression → Bool
  | .fieldAccess (.elvis _ _) _ => true
  | _ => false

/-! ## Regrouping -/

/-- Operands of `?:` in a row: the last one and those in front of it, latest first. -/
structure Chain where
  last : Expression
  earlier : List Expression

namespace Chain

/-- One operand. -/
def single (e : Expression) : Chain :=
  ⟨e, []⟩

/-- The operands of one chain behind those of another. -/
def after (c d : Chain) : Chain :=
  ⟨c.last, c.earlier ++ d.last :: d.earlier⟩

/-- A chain with a field behind it, which is a field of its last operand. -/
def access (c : Chain) (field : String) : Chain :=
  ⟨.fieldAccess c.last field, c.earlier⟩

/-- The expression made up of operands, from the left. -/
def join (last : Expression) : List Expression → Expression
  | [] => last
  | e :: earlier => .elvis (join e earlier) last

/-- The expression that a chain is. -/
def joined (c : Chain) : Expression :=
  join c.last c.earlier

end Chain

end Expression

mutual

/-- The operands of `?:` that the text of an expression falls into. -/
def Expression.chain : Expression → Expression.Chain
  | .name identifier => .single (.name identifier)
  | .fieldAccess target field => target.chain.access field
  | .elvis left right =>
    (if right.isAtomic then right.chain else .single right.chain.joined).after left.chain
  | .list items => .single (.list (regroupedItems items))
  | .call function arguments => .single (.call function (regroupedArguments arguments))
  | .new typeName arguments => .single (.new typeName (regroupedArguments arguments))
  | .int value => .single (.int value)
  | .source text => .single (.source text)

/-- What the text of an argument is read as. -/
def Argument.regrouped : Argument → Argument
  | .positional value => .positional value.chain.joined
  | .rest values => .rest values.chain.joined

/-- What the texts of the items of a list are read as. -/
def regroupedItems : List Expression → List Expression
  | [] => []
  | e :: rest => e.chain.joined :: regroupedItems rest

/-- What the texts of arguments are read as. -/
def regroupedArguments : List Argument → List Argument
  | [] => []
  | a :: rest => a.regrouped :: regroupedArguments rest

end

/-- What the text of an expression is read as. -/
def Expression.regrouped (e : Expression) : Expression :=
  e.chain.joined

theorem regroupedItems_eq_map (es : List Expression) :
    regroupedItems es = es.map Expression.regrouped := by
  induction es with
  | nil => rfl
  | cons e es ih =>
      rw [regroupedItems, ih]
      rfl

theorem regroupedArguments_eq_map (as : List Argument) :
    regroupedArguments as = as.map Argument.regrouped := by
  induction as with
  | nil => rfl
  | cons a as ih => rw [regroupedArguments, ih, List.map_cons]

theorem map_eq_self_iff {α : Type} {f : α → α} {xs : List α} :
    xs.map f = xs ↔ ∀ x ∈ xs, f x = x := by
  have h := List.map_inj_left (l := xs) (f := f) (g := id)
  rwa [List.map_id] at h

theorem Argument.regrouped_eq_self_iff (a : Argument) :
    a.regrouped = a ↔ a.value.regrouped = a.value := by
  cases a with
  | positional value =>
      rw [regrouped, positional.injEq]
      rfl
  | rest values =>
      rw [regrouped, rest.injEq]
      rfl

theorem regroupedItems_eq_self_iff (es : List Expression) :
    regroupedItems es = es ↔ ∀ e ∈ es, e.regrouped = e := by
  rw [regroupedItems_eq_map, map_eq_self_iff]

theorem regroupedArguments_eq_self_iff (as : List Argument) :
    regroupedArguments as = as ↔ ∀ a ∈ as, a.value.regrouped = a.value := by
  rw [regroupedArguments_eq_map, map_eq_self_iff]
  exact forall₂_congr fun a _ => a.regrouped_eq_self_iff

/-! ## What regrouping leaves alone -/

namespace Expression

/-- How many `?:` an expression has outside of brackets. -/
def elvisCount : Expression → Nat
  | .elvis left right => left.elvisCount + right.elvisCount + 1
  | .fieldAccess target _ => target.elvisCount
  | _ => 0

namespace Chain

theorem joined_after (c d : Chain) (h : c.earlier = []) :
    (c.after d).joined = .elvis d.joined c.last := by
  rw [joined, after, h]
  rfl

/-- A chain that is not a `?:` has one operand. -/
theorem eq_single_of_joined_eq {c : Chain} {e : Expression} (h : c.joined = e)
    (he : ∀ left right, e ≠ .elvis left right) : c = single e := by
  obtain ⟨last, earlier⟩ := c
  cases earlier with
  | nil =>
      cases h
      rfl
  | cons f fs => exact absurd h.symm (he _ _)

theorem elvisCount_join_append (last e : Expression) (fs gs : List Expression) :
    (join last (fs ++ e :: gs)).elvisCount =
      (join last fs).elvisCount + (join e gs).elvisCount + 1 := by
  induction fs generalizing last with
  | nil =>
      show (join e gs).elvisCount + last.elvisCount + 1 = last.elvisCount + (join e gs).elvisCount + 1
      omega
  | cons f fs ih =>
      rw [List.cons_append, join, elvisCount, ih, join, elvisCount]
      omega

theorem elvisCount_joined_after (c d : Chain) :
    (c.after d).joined.elvisCount = c.joined.elvisCount + d.joined.elvisCount + 1 :=
  elvisCount_join_append c.last d.last c.earlier d.earlier

theorem elvisCount_joined_access (c : Chain) (field : String) :
    (c.access field).joined.elvisCount = c.joined.elvisCount := by
  obtain ⟨last, earlier⟩ := c
  cases earlier <;> rfl

end Chain

/-- Parentheses make no difference to what the right operand of `?:` is regrouped to. -/
theorem joined_right (e : Expression) :
    (if e.isAtomic then e.chain else .single e.chain.joined).joined = e.regrouped := by
  split <;> rfl

/-- Regrouping keeps every `?:`. -/
theorem elvisCount_regrouped (e : Expression) : e.regrouped.elvisCount = e.elvisCount := by
  induction e using Expression.induction with
  | fieldAccess target field ih =>
      rw [regrouped, chain, Chain.elvisCount_joined_access, elvisCount]
      exact ih
  | elvis left right ihleft ihright =>
      rw [regrouped, chain, Chain.elvisCount_joined_after, joined_right, ihright]
      show right.elvisCount + left.regrouped.elvisCount + 1 = left.elvisCount + right.elvisCount + 1
      omega
  | name _ | list _ _ | call _ _ _ | new _ _ _ | int _ | source _ => rfl

theorem regrouped_fieldAccess_eq_iff (target : Expression) (field : String) :
    (Expression.fieldAccess target field).regrouped = .fieldAccess target field ↔
      target.chain = .single target := by
  rw [regrouped, chain]
  constructor
  · intro h
    have hsingle := Chain.eq_single_of_joined_eq h (by simp)
    injection hsingle with hlast hearlier
    injection hlast with hlast
    exact congrArg₂ Chain.mk hlast hearlier
  · intro h
    rw [h]
    rfl

/-- A `?:` stays as it is exactly if its operands do. -/
theorem regrouped_elvis_eq_iff (left right : Expression) :
    (Expression.elvis left right).regrouped = .elvis left right ↔
      left.regrouped = left ∧ right.regrouped = right := by
  have hjoined := joined_right right
  rw [regrouped, chain]
  generalize hc : (if right.isAtomic then right.chain else .single right.chain.joined) = c at hjoined ⊢
  obtain ⟨last, earlier⟩ := c
  cases earlier with
  | nil =>
      -- The right operand is one operand of the text.
      obtain rfl : last = right.regrouped := hjoined
      rw [Chain.joined_after _ _ rfl, elvis.injEq]
      rfl
  | cons f fs =>
      constructor
      · intro h
        -- The right operand has a `?:` in front of its own last operand, so it is not that operand.
        obtain rfl : last = right := (elvis.inj h).2
        have hcount := congrArg elvisCount hjoined
        rw [elvisCount_regrouped] at hcount
        have hmore : (Chain.joined ⟨last, f :: fs⟩).elvisCount =
            (Chain.join f fs).elvisCount + last.elvisCount + 1 := rfl
        omega
      · rintro ⟨_, hright⟩
        -- Without parentheses it is no `?:` itself, so it cannot stay as it is.
        split at hc
        next hatomic =>
          have hsingle := Chain.eq_single_of_joined_eq (hjoined.trans hright) (by
            rintro l r rfl
            cases hatomic)
          cases hsingle
        next => cases hc

/-- **What regrouping leaves alone.** An expression is regrouped to itself exactly if no field of a `?:`
occurs in it. -/
theorem regrouped_eq_self_iff (e : Expression) : e.regrouped = e ↔ e.Without isFieldOfElvis := by
  induction e using Expression.induction with
  | fieldAccess target field ih =>
      rw [regrouped_fieldAccess_eq_iff, without_iff, children, List.forall_mem_singleton, ← ih]
      constructor
      · intro h
        have htarget : target.regrouped = target := by
          rw [regrouped, h]
          rfl
        refine ⟨?_, htarget⟩
        cases target with
        | elvis left right =>
            have hearlier := congrArg Chain.earlier h
            rw [chain] at hearlier
            exact absurd hearlier (List.append_ne_nil_of_right_ne_nil _ (List.cons_ne_nil _ _))
        | _ => rfl
      · rintro ⟨hself, htarget⟩
        refine Chain.eq_single_of_joined_eq htarget ?_
        rintro left right rfl
        cases hself
  | elvis left right ihleft ihright =>
      rw [regrouped_elvis_eq_iff, without_iff, ihleft, ihright]
      simp [children, isFieldOfElvis]
  | list items ih =>
      show Expression.list (regroupedItems items) = .list items ↔ _
      rw [list.injEq, regroupedItems_eq_self_iff, without_iff]
      simp only [children, isFieldOfElvis, true_and]
      exact forall₂_congr ih
  | call function arguments ih =>
      show Expression.call function (regroupedArguments arguments) = .call function arguments ↔ _
      rw [call.injEq, regroupedArguments_eq_self_iff, without_iff]
      simp only [children, isFieldOfElvis, true_and, List.forall_mem_map]
      exact forall₂_congr ih
  | new typeName arguments ih =>
      show Expression.new typeName (regroupedArguments arguments) = .new typeName arguments ↔ _
      rw [new.injEq, regroupedArguments_eq_self_iff, without_iff]
      simp only [children, isFieldOfElvis, true_and, List.forall_mem_map]
      exact forall₂_congr ih
  | name _ | int _ | source _ =>
      rw [without_iff]
      simp [children, isFieldOfElvis, regrouped, chain, Chain.joined, Chain.single, Chain.join]

end Expression

end FunctionService
