import StyleAudit.Proofs.Nesting.Expression
import StyleAudit.Proofs.Ranges.Pattern

/-!
# Expressions with other source ranges

The calls, the accesses and the return sites of a tree whose source ranges change
are those of the tree with their ranges changed, and what is said about a single
one does not change.
-/

namespace StyleAudit.Node

variable (change : Span → Span)

/-! ## Calls -/

@[simp]
theorem pipedCall?_mapSpans (n : Node) :
    (n.mapSpans change).pipedCall? = n.pipedCall?.map (mapSpans change) := by
  simp only [pipedCall?, kind_mapSpans, children_mapSpans]
  cases n.kind with
  | pipe =>
      cases n.children with
      | nil => rfl
      | cons input rest => cases rest <;> rfl
  | _ => rfl

@[simp]
theorem outerCall?_mapSpans (n : Node) :
    (n.mapSpans change).outerCall? = n.outerCall?.map (mapSpans change) := by
  simp only [outerCall?, kind_mapSpans, pipedCall?_mapSpans]
  cases n.kind <;> rfl

@[simp]
theorem callTarget?_mapSpans (n : Node) :
    (n.mapSpans change).callTarget? = n.callTarget?.map (Prod.map (mapSpans change) id) := by
  simp only [callTarget?, kind_mapSpans, pipedCall?_mapSpans]
  cases n.kind with
  | call => simp
  | pipe => simp [Function.comp_def]
  | _ => rfl

theorem callsAll_map {ns : List Node}
    (each : ∀ n ∈ ns, ∀ piped, (n.mapSpans change).callsBelow piped =
      (n.callsBelow piped).map (Prod.map (mapSpans change) id)) :
    callsAll (ns.map (mapSpans change)) = (callsAll ns).map (Prod.map (mapSpans change) id) := by
  induction ns with
  | nil => rfl
  | cons n rest inductionHypothesis =>
      rw [List.map_cons, callsAll, callsAll, List.map_append, each n List.mem_cons_self,
        inductionHypothesis fun other member => each other (List.mem_cons_of_mem n member)]

theorem callsBelow_mapSpans (n : Node) (piped : Bool) :
    (n.mapSpans change).callsBelow piped =
      (n.callsBelow piped).map (Prod.map (mapSpans change) id) := by
  induction n using childInduction generalizing piped with
  | step n inductionHypothesis =>
      have among := callsAll_map change inductionHypothesis
      obtain ⟨kind, span, attributes, children⟩ := n
      rw [mapSpans_mk]
      cases kind with
      | module => rfl
      | call =>
          rw [callsBelow, callsBelow, List.map_cons, Prod.map, mapSpans_mk, among, List.length_map]
          rfl
      | pipe =>
          match children with
          | [] => rfl
          | [only] => exact inductionHypothesis only (by simp) false
          | input :: call :: rest =>
              have others : callsAll (rest.map (mapSpans change)) =
                  (callsAll rest).map (Prod.map (mapSpans change) id) :=
                callsAll_map change fun child member => inductionHypothesis child (by simp [member])
              rw [List.map_cons, List.map_cons, callsBelow, callsBelow, callsOfPipe, callsOfPipe,
                List.map_append, List.map_append, others, inductionHypothesis input (by simp),
                inductionHypothesis call (by simp)]
      | _ => exact among

theorem calls_mapSpans (n : Node) :
    (n.mapSpans change).calls = n.calls.map (Prod.map (mapSpans change) id) := by
  simp only [calls, kind_mapSpans, children_mapSpans, callsBelow_mapSpans,
    callsAll_map change fun child (_ : child ∈ n.children) => callsBelow_mapSpans change child]
  split <;> rfl

/-! ## Accesses -/

theorem accessChain_mapSpans (accessors : List String) (n : Node) :
    (n.mapSpans change).accessChain accessors =
      Prod.map id (mapSpans change) (n.accessChain accessors) := by
  induction n using childInduction with
  | step n inductionHypothesis =>
      cases children : n.children with
      | nil =>
          rw [accessChain_of_children_nil accessors children,
            accessChain_of_children_nil accessors (by rw [children_mapSpans, children]; rfl)]
          rfl
      | cons base rest =>
          have mapped : (n.mapSpans change).children =
              base.mapSpans change :: rest.map (mapSpans change) := by
            rw [children_mapSpans, children, List.map_cons]
          rw [accessChain_of_children_cons accessors children,
            accessChain_of_children_cons accessors mapped, kind_mapSpans, qualifiedName_mapSpans,
            inductionHypothesis base (by simp [children])]
          split <;> rfl

@[simp]
theorem accessRoot?_mapSpans (n : Node) (accessors : List String) :
    (n.mapSpans change).accessRoot? accessors = n.accessRoot? accessors := by
  simp [accessRoot?, accessChain_mapSpans]

/-! ## Branches -/

@[simp]
theorem branchParts?_mapSpans (branch : Node) :
    (branch.mapSpans change).branchParts? =
      branch.branchParts?.map (Prod.map (mapSpans change) (mapSpans change)) := by
  simp only [branchParts?, children_mapSpans]
  cases branch.children with
  | nil => rfl
  | cons pattern rest => cases rest <;> rfl

@[simp]
theorem singleExpression?_mapSpans (body : Node) :
    (body.mapSpans change).singleExpression? = body.singleExpression?.map (mapSpans change) := by
  simp only [singleExpression?, kind_mapSpans, children_mapSpans]
  split
  · cases body.children with
    | nil => rfl
    | cons only rest => cases rest <;> rfl
  · rfl

@[simp]
theorem isEcho_mapSpans (branch : Node) : (branch.mapSpans change).isEcho = branch.isEcho := by
  rw [isEcho, isEcho, branchParts?_mapSpans]
  cases branch.branchParts? with
  | none => rfl
  | some parts =>
      obtain ⟨pattern, body⟩ := parts
      simp [reduced_mapSpans, Option.any_map]

@[simp]
theorem holdsVariable_mapSpans (n : Node) :
    (n.mapSpans change).holdsVariable = n.holdsVariable := by
  simp [holdsVariable, preorder_mapSpans, List.any_map, Function.comp_def]

/-! ## Return sites -/

@[simp]
theorem isRaise_mapSpans (n : Node) : (n.mapSpans change).isRaise = n.isRaise := by
  simp [isRaise]

@[simp]
theorem callReturnKind_mapSpans (call : Node) :
    callReturnKind (call.mapSpans change) = callReturnKind call := by
  simp [callReturnKind]

@[simp]
theorem promisesBoolean_mapSpans (call : Node) :
    (call.mapSpans change).promisesBoolean = call.promisesBoolean := by
  simp [promisesBoolean]

@[simp]
theorem returnKind_mapSpans (n : Node) : (n.mapSpans change).returnKind = n.returnKind := by
  simp [returnKind, Function.comp_def]

@[simp]
theorem isBooleanValued_mapSpans (n : Node) :
    (n.mapSpans change).isBooleanValued = n.isBooleanValued := by
  simp [isBooleanValued, Option.any_map]

@[simp]
theorem isStatusList_mapSpans (n : Node) :
    (n.mapSpans change).isStatusList = n.isStatusList := by
  simp only [isStatusList, kind_mapSpans, children_mapSpans]
  cases n.kind with
  | list =>
      cases n.children with
      | nil => rfl
      | cons first rest =>
          cases rest with
          | nil => rfl
          | cons second others => simp
  | _ => rfl

/-! ## Terminals -/

theorem lastTerminals_map (block : Node) {ns : List Node}
    (each : ∀ n ∈ ns, (n.mapSpans change).terminals = n.terminals.map (mapSpans change)) :
    lastTerminals (block.mapSpans change) (ns.map (mapSpans change)) =
      (lastTerminals block ns).map (mapSpans change) := by
  induction ns with
  | nil => rfl
  | cons n rest inductionHypothesis =>
      cases rest with
      | nil => exact each n List.mem_cons_self
      | cons next others =>
          exact inductionHypothesis fun m member => each m (List.mem_cons_of_mem n member)

theorem armTerminals_map {arms : List Node}
    (each : ∀ arm ∈ arms, ∀ body ∈ arm.children,
      (body.mapSpans change).terminals = body.terminals.map (mapSpans change)) :
    armTerminals (arms.map (mapSpans change)) = (armTerminals arms).map (mapSpans change) := by
  induction arms with
  | nil => rfl
  | cons arm rest inductionHypothesis =>
      have here := each arm List.mem_cons_self
      have later := inductionHypothesis fun other member =>
        each other (List.mem_cons_of_mem arm member)
      obtain ⟨kind, span, attributes, children⟩ := arm
      rw [List.map_cons, mapSpans_mk]
      match children with
      | [] => exact later
      | [_] => exact later
      | pattern :: body :: others =>
          rw [List.map_cons, List.map_cons, armTerminals, armTerminals, List.map_append,
            here body (by simp), later]

theorem doTerminals_map {ns : List Node}
    (each : ∀ n ∈ ns, (n.mapSpans change).terminals = n.terminals.map (mapSpans change)) :
    doTerminals (ns.map (mapSpans change)) = (doTerminals ns).map (mapSpans change) := by
  induction ns with
  | nil => rfl
  | cons n rest inductionHypothesis =>
      rw [List.map_cons, doTerminals, doTerminals, kind_mapSpans, each n List.mem_cons_self,
        inductionHypothesis fun m member => each m (List.mem_cons_of_mem n member)]
      split <;> rfl

theorem elseTerminals_map (whole : Node) {ns : List Node}
    (each : ∀ n ∈ ns, ∀ m ∈ n.preorder,
      (m.mapSpans change).terminals = m.terminals.map (mapSpans change)) :
    elseTerminals (whole.mapSpans change) (ns.map (mapSpans change)) =
      (elseTerminals whole ns).map (mapSpans change) := by
  induction ns with
  | nil => rfl
  | cons n rest inductionHypothesis =>
      have arms : armTerminals (n.children.map (mapSpans change)) =
          (armTerminals n.children).map (mapSpans change) := by
        refine armTerminals_map change fun arm armMember body bodyMember => ?_
        exact each n List.mem_cons_self body (mem_preorder_trans
          (mem_preorder_of_mem_children bodyMember) (mem_preorder_of_mem_children armMember))
      rw [List.map_cons, elseTerminals_cons, elseTerminals_cons, kind_mapSpans, children_mapSpans,
        arms, inductionHypothesis fun m member => each m (List.mem_cons_of_mem n member)]
      split <;> rfl

/-- The return sites are those of the tree, with their ranges changed. -/
theorem terminals_mapSpans (n : Node) :
    (n.mapSpans change).terminals = n.terminals.map (mapSpans change) := by
  -- The bodies of branches are children of children, so the induction is on all descendants.
  induction n using descendantInduction with
  | step n inductionHypothesis =>
      have childrenSame : ∀ child ∈ n.children,
          (child.mapSpans change).terminals = child.terminals.map (mapSpans change) :=
        fun child member => inductionHypothesis child member child (mem_preorder_self child)
      have bodiesSame : ∀ arm ∈ n.children, ∀ body ∈ arm.children,
          (body.mapSpans change).terminals = body.terminals.map (mapSpans change) :=
        fun arm member body inside =>
          inductionHypothesis arm member body (mem_preorder_of_mem_children inside)
      obtain ⟨kind, span, attributes, children⟩ := n
      have whole := mapSpans_mk change kind span attributes children
      rw [whole]
      cases kind with
      | block =>
          rw [terminals, terminals, ← whole]
          exact lastTerminals_map change _ childrenSame
      | ifExpr =>
          rw [terminals, terminals, ← whole]
          match children with
          | [] => rfl
          | [_] => rfl
          | [_, consequent] =>
              rw [List.map_cons, List.map_cons, List.map_nil, choiceTerminals, choiceTerminals,
                childrenSame consequent (by simp), List.map_append]
              rfl
          | _ :: consequent :: alternative :: _ =>
              rw [List.map_cons, List.map_cons, List.map_cons, choiceTerminals, choiceTerminals,
                childrenSame consequent (by simp), childrenSame alternative (by simp),
                List.map_append]
      | caseExpr =>
          rw [terminals, terminals]
          cases children with
          | nil => rfl
          | cons subject arms =>
              exact armTerminals_map change fun arm member =>
                bodiesSame arm (List.mem_cons_of_mem subject member)
      | condExpr =>
          rw [terminals, terminals]
          exact armTerminals_map change bodiesSame
      | withExpr =>
          rw [terminals, terminals, ← whole, List.map_append, doTerminals_map change childrenSame,
            elseTerminals_map change _ inductionHypothesis]
      | matchExpr =>
          rw [terminals, terminals, ← whole]
          match children with
          | [] => rfl
          | [_] => rfl
          | pattern :: value :: _ =>
              rw [List.map_cons, List.map_cons, matchTerminals, matchTerminals,
                holdsVariable_mapSpans, childrenSame value (by simp)]
              split <;> rfl
      | _ => rw [terminals, terminals, List.map_singleton, whole] <;> nofun

end StyleAudit.Node
