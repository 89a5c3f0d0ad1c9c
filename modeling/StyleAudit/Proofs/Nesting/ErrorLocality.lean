import StyleAudit.Proofs.Nesting.Function

/-!
# Generic errors and nested modules

The fallback branches of a function and the errors that they produce are found
without a look inside nested modules. Whether a caller branches on an error is
not: `branchesOn` searches everything below a body. `check_eq_of_branchesAt`: two
modules that are the same when emptied are judged alike as long as the bodies of
their functions branch on the same errors.
-/

namespace StyleAudit.ErrorLocality

open Node (AgreeEmptied)

variable {m m' n : Node} {scope scope' : ModuleScope} {group group' : FunctionGroup}

/-! ## Fallback branches -/

theorem agreeEmptied_outlineAll {ns : List Node}
    (each : ∀ n ∈ ns, AgreeEmptied (n.emptied.outlineBelow isSeparate) (n.outlineBelow isSeparate))
    (kept : Nat) :
    AgreeEmptied (Node.outlineAll isSeparate (Node.emptiedAfter kept ns))
      (Node.outlineAll isSeparate ns) := by
  induction ns generalizing kept with
  | nil => simp [AgreeEmptied]
  | cons n rest inductionHypothesis =>
      have later := inductionHypothesis fun other member =>
        each other (List.mem_cons_of_mem n member)
      cases kept with
      | zero => exact (each n List.mem_cons_self).append (later 0)
      | succ kept => exact AgreeEmptied.append rfl (later kept)

/-- The search for branches stops where nested modules begin, and so it does not see
what is in them. -/
theorem agreeEmptied_outlineBelow (n : Node) :
    AgreeEmptied (n.emptied.outlineBelow isSeparate) (n.outlineBelow isSeparate) := by
  induction n using Node.childInduction with
  | step n inductionHypothesis =>
      have below := agreeEmptied_outlineAll inductionHypothesis
      have itself := AgreeEmptied.singleton_emptied n
      obtain ⟨kind, span, attributes, children⟩ := n
      by_cases isModule : kind = .module
      · cases isModule
        exact itself
      · rw [Node.emptied, if_neg isModule] at itself ⊢
        refine itself.append ?_
        cases isSeparate kind with
        | true => rfl
        | false => exact below _

theorem agreeEmptied_outline (noModule : n.kind ≠ .module) :
    AgreeEmptied (n.emptied.outline isSeparate) (n.outline isSeparate) := by
  refine AgreeEmptied.append (AgreeEmptied.singleton_emptied n) ?_
  rw [Node.children_emptied noModule]
  exact agreeEmptied_outlineAll (fun child _ => agreeEmptied_outlineBelow child) _

theorem agreeEmptied_branchesOf (n : Node) :
    AgreeEmptied (branchesOf n.emptied) (branchesOf n) := by
  obtain ⟨kind, span, attributes, children⟩ := n
  cases kind with
  | caseExpr =>
      rw [Node.emptied_of_readsByParts rfl]
      simp only [branchesOf, ← List.map_drop]
      exact AgreeEmptied.map_emptied _
  | elseBlock =>
      rw [Node.emptied_of_readsByParts rfl]
      exact AgreeEmptied.map_emptied children
  | _ => rfl

theorem isFallback_emptied {branch : Node} (isBranch : branch.kind = .branch) :
    (branch.emptied.branchParts?.any fun (pattern, _) => pattern.isDiscarding) =
      branch.branchParts?.any fun (pattern, _) => pattern.isDiscarding := by
  rcases Node.branchParts?_emptied isBranch with same | ⟨pattern, body, parts, _, emptiedParts⟩
  · rw [same]
  · rw [parts, emptiedParts]
    rfl

theorem agreeEmptied_fallbackBranches (shaped : n.IsWellShaped) (noModule : n.kind ≠ .module) :
    AgreeEmptied (fallbackBranches n.emptied) (fallbackBranches n) := by
  have agree : AgreeEmptied ((n.emptied.outline isSeparate).flatMap branchesOf)
      ((n.outline isSeparate).flatMap branchesOf) :=
    (agreeEmptied_outline noModule).flatMap agreeEmptied_branchesOf
  have areBranches : ∀ branch ∈ (n.outline isSeparate).flatMap branchesOf,
      branch.kind = .branch := by
    intro branch member
    obtain ⟨inner, listed, inInner⟩ := List.mem_flatMap.mp member
    exact (branches_of_branchesOf (shaped.of_mem (Node.outline_subset _ n listed)) branch inInner).1
  refine agree.filter_of_mem ?_ fun branch member => isFallback_emptied (areBranches branch member)
  intro branch member
  obtain ⟨other, otherMember, same⟩ := agree.exists_mem member
  exact isFallback_emptied ((Node.kind_eq_of_emptied_eq same).trans (areBranches other otherMember))

/-! ## Generic errors -/

theorem isGenericError_emptied (value : Node) :
    isGenericError value.emptied = isGenericError value := by
  have sameTag := Node.tag?_emptied value
  obtain ⟨kind, span, attributes, children⟩ := value
  cases kind with
  | tuple =>
      rw [Node.emptied_of_readsByParts rfl] at sameTag ⊢
      match children with
      | [] => rfl
      | [_] => rfl
      | [first, reason] =>
          simp only [isGenericError, List.map_cons, List.map_nil] at sameTag ⊢
          rw [sameTag, Node.kind_emptied]
      | _ :: _ :: _ :: _ => rfl
  | _ => rfl

theorem emptied_of_atom (isAtom : n.kind = .atom) : n.emptied = n :=
  Node.emptied_eq_self_of_all_read (by simp [isAtom]) (by simp [Node.readWhole, isAtom])

theorem kind_of_reduced_atom (isAtom : n.reduced.kind = .atom) : n.kind = .atom := by
  obtain ⟨kind, span, attributes, children⟩ := n
  cases kind with
  | matchExpr =>
      match children with
      | [] => exact isAtom
      | [_] => exact isAtom
      | left :: right :: rest =>
          rw [Node.reduced, Node.boundSide?] at isAtom
          split at isAtom
          · rename_i isVar
            rw [Option.getD_some, isVar] at isAtom
            cases isAtom
          · split at isAtom
            · rename_i isVar
              rw [Option.getD_some, isVar] at isAtom
              cases isAtom
            · exact isAtom
  | _ => exact isAtom

/-- A generic error is made of atoms, which are kept. -/
theorem emptied_of_isGenericError {value : Node} (generic : isGenericError value = true) :
    value.emptied = value := by
  obtain ⟨kind, span, attributes, children⟩ := value
  cases kind with
  | atom => exact emptied_of_atom rfl
  | tuple =>
      match children with
      | [first, reason] =>
          rw [isGenericError, Bool.and_eq_true, beq_iff_eq, beq_iff_eq] at generic
          obtain ⟨tagged, isAtom⟩ := generic
          have firstAtom : first.reduced.kind = .atom := by
            by_contra noAtom
            simp [Node.tag?, Node.reduced, Node.reducedAll, noAtom] at tagged
          rw [Node.emptied_of_readsByParts rfl, List.map_cons, List.map_cons,
            emptied_of_atom (kind_of_reduced_atom firstAtom), emptied_of_atom isAtom, List.map_nil]
      | [] => cases generic
      | [_] => cases generic
      | _ :: _ :: _ :: _ => cases generic
  | _ => cases generic

/-! ## Callers that branch on an error -/

/-- The body of the function at a position branches on an error. -/
def branchesAt (m : Node) (position : Nat) (error : Node) : Bool :=
  m.children[position]?.any fun form =>
    form.kind == .function && form.children[1]?.any (branchesOn error)

/-- Whether some body branches on an error can be asked clause by clause. -/
theorem any_bodies_eq {isNested : String → Bool}
    (indexed : ModuleScope.ofModule isNested m = .ok scope) (member : group ∈ scope.functions)
    (error : Node) :
    group.bodies.any (branchesOn error) =
      group.clauses.any fun clause => branchesAt m clause.position error := by
  have inClause : ∀ clause ∈ group.clauses,
      branchesAt m clause.position error = clause.body?.any (branchesOn error) := by
    intro clause listed
    obtain ⟨_, isFunction⟩ := (refersTo_of_ofModule indexed).clauses group member clause listed
    rw [branchesAt, getElem?_position_of_ofModule indexed member listed, Option.any_some,
      isFunction, Clause.body?]
    rcases clause.node.children with _ | ⟨_, _ | ⟨_, _⟩⟩ <;> rfl
  rw [FunctionGroup.bodies, Bool.eq_iff_iff]
  simp only [List.any_eq_true, List.mem_filterMap]
  constructor
  · rintro ⟨body, ⟨clause, listed, isBody⟩, branches⟩
    refine ⟨clause, listed, ?_⟩
    rw [inClause clause listed, isBody]
    exact branches
  · rintro ⟨clause, listed, branches⟩
    rw [inClause clause listed, Option.any_eq_true] at branches
    obtain ⟨body, isBody, branchesHere⟩ := branches
    exact ⟨body, ⟨clause, listed, isBody⟩, branchesHere⟩

/-- Whether callers handle an error depends on the branches in their bodies
only. -/
theorem isHandledByCaller_eq {isNested : String → Bool} {graph : CallGraph} {error : Node}
    (indexed : ModuleScope.ofModule isNested m = .ok scope)
    (indexed' : ModuleScope.ofModule isNested m' = .ok scope')
    (sameScope : scope.emptied = scope'.emptied)
    (branching : ∀ position, branchesAt m position error = branchesAt m' position error)
    (sameKey : group.key = group'.key) :
    isHandledByCaller ⟨scope, graph⟩ group error =
      isHandledByCaller ⟨scope', graph⟩ group' error := by
  have handles : ∀ caller,
      ((scope.function? caller).any fun callerGroup => callerGroup.bodies.any (branchesOn error)) =
      (scope'.function? caller).any fun callerGroup =>
        callerGroup.bodies.any (branchesOn error) := by
    intro caller
    have sameFunction : (scope.function? caller).map FunctionGroup.emptied =
        (scope'.function? caller).map FunctionGroup.emptied := by
      rw [← ModuleScope.function?_emptied, sameScope, ModuleScope.function?_emptied]
    cases found : scope.function? caller with
    | none =>
        rw [found, Option.map_none, eq_comm, Option.map_eq_none_iff] at sameFunction
        rw [sameFunction]
    | some callerGroup =>
        rw [found, Option.map_some, eq_comm, Option.map_eq_some_iff] at sameFunction
        obtain ⟨other, foundOther, sameGroup⟩ := sameFunction
        have samePositions : other.clauses.map (·.position) =
            callerGroup.clauses.map (·.position) := by
          have samePlaces := congrArg (List.map Clause.position)
            (congrArg FunctionGroup.clauses sameGroup)
          simpa [Function.comp_def, Clause.emptied] using samePlaces
        have member := List.mem_of_find?_eq_some found
        have memberOther := List.mem_of_find?_eq_some foundOther
        rw [foundOther, Option.any_some, Option.any_some, any_bodies_eq indexed member,
          any_bodies_eq indexed' memberOther]
        have byPosition := congrArg (List.any · (branchesAt m · error)) samePositions
        simpa [List.any_map, Function.comp_def, branching] using byPosition.symm
  simp only [isHandledByCaller, sameKey, handles]

theorem isUnhandled_emptied (context : ModuleContext) (group : FunctionGroup) {branch : Node}
    (isBranch : branch.kind = .branch) :
    isUnhandled context group branch.emptied = isUnhandled context group branch := by
  rcases Node.branchParts?_emptied isBranch with same | ⟨pattern, body, parts, _, emptiedParts⟩
  · rw [isUnhandled, isUnhandled, same]
  · rw [isUnhandled, isUnhandled, parts, emptiedParts]
    simp only [Option.bind_some, Node.singleExpression?_emptied]
    cases body.singleExpression? with
    | none => rfl
    | some produced =>
        simp only [Option.map_some, isGenericError_emptied]
        cases generic : isGenericError produced with
        | false => rfl
        | true => rw [emptied_of_isGenericError generic]

/-! ## Findings -/

/-- Modules that are the same when emptied, and whose functions branch on the
same errors, give the same findings at places that are the same when emptied. -/
theorem check_eq_of_branchesAt {isNested : String → Bool} {graph : CallGraph} {path : NodePath}
    {n n' : Node} (indexed : ModuleScope.ofModule isNested m = .ok scope)
    (indexed' : ModuleScope.ofModule isNested m' = .ok scope')
    (sameScope : scope.emptied = scope'.emptied)
    (branching : ∀ position error, isGenericError error = true →
      branchesAt m position error = branchesAt m' position error)
    (shaped : n.IsWellShaped) (shaped' : n'.IsWellShaped) (isFunction : n.kind = .function)
    (same : n.emptied = n'.emptied) :
    check ⟨scope, graph⟩ ⟨path, n⟩ = check ⟨scope', graph⟩ ⟨path, n'⟩ := by
  obtain ⟨params, body, rest, children, _, bodyShaped⟩ :=
    shaped.exists_pair (by rw [isFunction]; rfl)
  have isFunction' : n'.kind = .function := (Node.kind_eq_of_emptied_eq same).symm.trans isFunction
  obtain ⟨params', body', rest', children', _, bodyShaped'⟩ :=
    shaped'.exists_pair (by rw [isFunction']; rfl)
  have isBlock := shaped.second_kind (by rw [isFunction]; rfl) children
  have isBlock' := shaped'.second_kind (by rw [isFunction']; rfl) children'
  have sameBody : body.emptied = body'.emptied := by
    have sameChildren := Node.map_emptied_of_emptied_eq same (by simp [isFunction])
    rw [children, children'] at sameChildren
    simp only [List.map_cons, List.cons.injEq] at sameChildren
    exact sameChildren.2.1
  have agree : AgreeEmptied (fallbackBranches body) (fallbackBranches body') := by
    have left := agreeEmptied_fallbackBranches bodyShaped (by simp [isBlock])
    have right := agreeEmptied_fallbackBranches bodyShaped' (by simp [isBlock'])
    rw [sameBody] at left
    exact left.symm.trans right
  have sameGroup : (scope.functionForClause? path).map FunctionGroup.emptied =
      (scope'.functionForClause? path).map FunctionGroup.emptied := by
    rw [← ModuleScope.functionForClause?_emptied, sameScope, ModuleScope.functionForClause?_emptied]
  rw [check, check, children, children']
  cases found : scope.functionForClause? path with
  | none =>
      rw [found, Option.map_none, eq_comm, Option.map_eq_none_iff] at sameGroup
      rw [sameGroup]
  | some group =>
      rw [found, Option.map_some, eq_comm, Option.map_eq_some_iff] at sameGroup
      obtain ⟨other, foundOther, same⟩ := sameGroup
      have sameKey : group.key = other.key := (congrArg FunctionGroup.key same).symm
      have sameUnhandled : isUnhandled ⟨scope, graph⟩ group =
          isUnhandled ⟨scope', graph⟩ other := by
        funext branch
        rw [isUnhandled, isUnhandled]
        cases branch.branchParts?.bind fun (_, body) => body.singleExpression? with
        | none => rfl
        | some produced =>
            cases generic : isGenericError produced with
            | false => simp [generic]
            | true =>
                simp only [isHandledByCaller_eq indexed indexed' sameScope
                  (branching · produced generic) sameKey]
      rw [foundOther]
      simp only [sameUnhandled]
      have kept := agree.filter_of_mem
        (fun branch member => isUnhandled_emptied ⟨scope', graph⟩ other
          ((readFallbackBranches_eq bodyShaped).2 branch member).1)
        (fun branch member => isUnhandled_emptied ⟨scope', graph⟩ other
          ((readFallbackBranches_eq bodyShaped').2 branch member).1)
      have sameFinding : genericError group = genericError other := by
        funext branch
        rw [genericError, genericError, sameKey]
      rw [sameFinding]
      exact kept.map_eq fun branch => by simp [genericError]

end StyleAudit.ErrorLocality
