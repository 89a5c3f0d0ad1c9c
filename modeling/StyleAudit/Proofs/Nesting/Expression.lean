import StyleAudit.Proofs.Expression.Terminals
import StyleAudit.Proofs.Nesting.Pattern

/-!
# Expressions of emptied trees

The calls, the accesses and the return sites of a tree are those of
`Node.emptied` of it: lists of nodes agree when all their nodes are emptied, and
what is said about a single return site does not change.
-/

namespace StyleAudit.Node

variable {n m : Node}

/-! ## Calls -/

theorem outerCall?_emptied (n : Node) : n.emptied.outerCall? = n.outerCall?.map emptied := by
  obtain ⟨kind, span, attributes, children⟩ := n
  cases kind with
  | pipe =>
      match children with
      | [] => rfl
      | [only] => rfl
      | input :: call :: rest => rfl
  | _ => rfl

theorem callTarget?_emptied (shaped : n.IsWellShaped) :
    n.emptied.callTarget? = n.callTarget?.map (Prod.map emptied id) := by
  rw [callTarget?, callTarget?, kind_emptied]
  cases kind : n.kind with
  | call => simp [length_children_emptied, kind]
  | pipe =>
      obtain ⟨input, call, rest, children, _, _⟩ := shaped.exists_pair (by rw [kind]; rfl)
      have isCall := shaped.second_kind (by rw [kind]; rfl) children
      have emptiedChildren : n.emptied.children =
          input.emptied :: call.emptied :: rest.map emptied := by
        rw [children_emptied_of_readsByParts (by rw [kind]; rfl), children]
        rfl
      simp [pipedCall?, kind, children, emptiedChildren, length_children_emptied, isCall]
  | _ => rfl

/-- Calls with emptied nodes. -/
def emptiedCalls (calls : List (Node × Nat)) : List (Node × Nat) :=
  calls.map (Prod.map emptied id)

@[simp]
theorem emptiedCalls_append (calls others : List (Node × Nat)) :
    emptiedCalls (calls ++ others) = emptiedCalls calls ++ emptiedCalls others :=
  List.map_append

theorem emptiedCalls_callsAll {ns : List Node}
    (each : ∀ n ∈ ns, ∀ piped,
      emptiedCalls (n.emptied.callsBelow piped) = emptiedCalls (n.callsBelow piped))
    (kept : Nat) :
    emptiedCalls (callsAll (emptiedAfter kept ns)) = emptiedCalls (callsAll ns) := by
  induction ns generalizing kept with
  | nil => simp
  | cons n rest inductionHypothesis =>
      have later := inductionHypothesis fun other member =>
        each other (List.mem_cons_of_mem n member)
      cases kept with
      | zero =>
          rw [emptiedAfter, callsAll, callsAll, emptiedCalls_append, emptiedCalls_append,
            each n List.mem_cons_self, later]
      | succ kept =>
          rw [emptiedAfter_succ, callsAll, callsAll, emptiedCalls_append, emptiedCalls_append,
            later]

/-- Calls are not looked for in nested modules. -/
theorem emptiedCalls_callsBelow (n : Node) (piped : Bool) :
    emptiedCalls (n.emptied.callsBelow piped) = emptiedCalls (n.callsBelow piped) := by
  induction n using childInduction generalizing piped with
  | step n inductionHypothesis =>
      have among := emptiedCalls_callsAll inductionHypothesis
      obtain ⟨kind, span, attributes, children⟩ := n
      cases kind with
      | module => rfl
      | call =>
          have below : ∀ items, callsBelow piped ⟨.call, span, attributes, items⟩ =
              (⟨.call, span, attributes, items⟩, items.length + if piped then 1 else 0)
                :: callsAll items := fun _ => rfl
          have emptiedCall : emptied ⟨.call, span, attributes, children⟩ =
              ⟨.call, span, attributes,
                emptiedAfter (readWhole ⟨.call, span, attributes, children⟩) children⟩ := rfl
          have twice := emptied_emptied ⟨.call, span, attributes, children⟩
          rw [emptiedCall] at twice ⊢
          rw [below, below, emptiedCalls, List.map_cons, emptiedCalls, List.map_cons,
            length_emptiedAfter, Prod.map, Prod.map, twice]
          exact congrArg _ (among _)
      | pipe =>
          match children with
          | [] => rfl
          | [only] => exact inductionHypothesis only (by simp) false
          | input :: call :: rest =>
              have below : ∀ first second others,
                  callsBelow piped ⟨.pipe, span, attributes, first :: second :: others⟩ =
                    callsBelow false first ++ callsBelow true second ++ callsAll others :=
                fun _ _ _ => rfl
              have emptiedPipe : emptied ⟨.pipe, span, attributes, input :: call :: rest⟩ =
                  ⟨.pipe, span, attributes,
                    input.emptied :: call.emptied :: emptiedAfter 0 rest⟩ := rfl
              have others : emptiedCalls (callsAll (emptiedAfter 0 rest)) =
                  emptiedCalls (callsAll rest) :=
                emptiedCalls_callsAll
                  (fun child member => inductionHypothesis child (by simp [member])) 0
              rw [emptiedPipe, below, below]
              simp only [emptiedCalls_append, others, inductionHypothesis input (by simp),
                inductionHypothesis call (by simp)]
      | _ => exact among _

theorem emptiedCalls_calls (n : Node) (noModule : n.kind ≠ .module) :
    emptiedCalls n.emptied.calls = emptiedCalls n.calls := by
  rw [calls, calls, kind_emptied, if_neg noModule, if_neg noModule, emptiedCalls_callsBelow]

/-! ## Accesses -/

theorem accessChain_of_children_nil (accessors : List String) (none : n.children = []) :
    n.accessChain accessors = (0, n) := by
  obtain ⟨kind, span, attributes, children⟩ := n
  cases none
  rfl

theorem accessChain_of_children_cons {base : Node} {rest : List Node} (accessors : List String)
    (children : n.children = base :: rest) :
    n.accessChain accessors =
      if n.kind = .access ∨ n.kind = .call ∧ accessors.contains n.qualifiedName then
        ((base.accessChain accessors).1 + 1, (base.accessChain accessors).2)
      else (0, n) := by
  obtain ⟨kind, span, attributes, children⟩ := n
  cases children
  rfl

/-- A chain of accesses is read without a look into nested modules. -/
theorem accessChain_emptied (n : Node) (accessors : List String) :
    (n.emptied.accessChain accessors).1 = (n.accessChain accessors).1 ∧
      (n.emptied.accessChain accessors).2.emptied = (n.accessChain accessors).2.emptied := by
  induction n using childInduction with
  | step n inductionHypothesis =>
      cases children : n.children with
      | nil =>
          have none : n.emptied.children = [] := by
            by_cases isModule : n.kind = .module
            · exact children_emptied_of_module isModule
            · rw [children_emptied isModule, children, emptiedAfter_nil]
          rw [accessChain_of_children_nil accessors children,
            accessChain_of_children_nil accessors none, emptied_emptied]
          exact ⟨rfl, rfl⟩
      | cons base rest =>
          rw [accessChain_of_children_cons accessors children]
          by_cases isModule : n.kind = .module
          · rw [accessChain_of_children_nil accessors (children_emptied_of_module isModule)]
            simp [isModule]
          · have baseSame := inductionHypothesis base (by simp [children])
            obtain ⟨base', rest', emptiedChildren, same⟩ : ∃ base' rest',
                n.emptied.children = base' :: rest' ∧
                (base' = base ∨ base' = base.emptied) := by
              rw [children_emptied isModule, children]
              cases n.readWhole with
              | zero => exact ⟨_, _, rfl, Or.inr rfl⟩
              | succ kept => exact ⟨_, _, rfl, Or.inl rfl⟩
            rw [accessChain_of_children_cons accessors emptiedChildren, kind_emptied,
              qualifiedName_emptied]
            split
            · rcases same with rfl | rfl
              · exact ⟨rfl, rfl⟩
              · exact ⟨congrArg (· + 1) baseSame.1, baseSame.2⟩
            · exact ⟨rfl, emptied_emptied n⟩

theorem accessRoot?_emptied (n : Node) (accessors : List String) :
    n.emptied.accessRoot? accessors = n.accessRoot? accessors := by
  obtain ⟨sameDepth, sameRoot⟩ := accessChain_emptied n accessors
  have sameName : (n.emptied.accessChain accessors).2.name = (n.accessChain accessors).2.name := by
    rw [← name_emptied, sameRoot, name_emptied]
  simp only [accessRoot?, sameDepth, kind_eq_of_emptied_eq sameRoot, sameName]

/-! ## Return sites -/

theorem isRaise_emptied (n : Node) : n.emptied.isRaise = n.isRaise := by
  simp [isRaise]

theorem callReturnKind_emptied (call : Node) :
    callReturnKind call.emptied = callReturnKind call := by
  simp [callReturnKind]

theorem promisesBoolean_emptied (call : Node) :
    call.emptied.promisesBoolean = call.promisesBoolean := by
  simp [promisesBoolean]

theorem returnKind_emptied (n : Node) : n.emptied.returnKind = n.returnKind := by
  simp only [returnKind, kind_emptied, tag?_emptied, isRaise_emptied, outerCall?_emptied,
    Option.map_map, Function.comp_def, callReturnKind_emptied]

theorem isBooleanValued_emptied (n : Node) : n.emptied.isBooleanValued = n.isBooleanValued := by
  simp only [isBooleanValued, kind_emptied, attr_emptied, outerCall?_emptied, Option.any_map,
    promisesBoolean_emptied]

theorem isStatusList_emptied (n : Node) : n.emptied.isStatusList = n.isStatusList := by
  obtain ⟨kind, span, attributes, children⟩ := n
  cases kind with
  | list =>
      match children with
      | [] => rfl
      | [only] => rfl
      | first :: second :: rest => simp [isStatusList, emptied, readWhole]
  | _ => rfl

/-! ## Lists that agree -/

/-- Both lists agree when their nodes are emptied. -/
def AgreeEmptied (ns ms : List Node) : Prop :=
  ns.map emptied = ms.map emptied

namespace AgreeEmptied

variable {ns ms ns' ms' : List Node}

theorem append (first : AgreeEmptied ns ms) (second : AgreeEmptied ns' ms') :
    AgreeEmptied (ns ++ ns') (ms ++ ms') := by
  rw [AgreeEmptied, List.map_append, List.map_append, first, second]

theorem singleton_emptied (n : Node) : AgreeEmptied [n.emptied] [n] := by
  simp [AgreeEmptied]

theorem map_emptied (ns : List Node) : AgreeEmptied (ns.map emptied) ns := by
  simp [AgreeEmptied, Function.comp_def]

/-- A function that gives the same for a node and the emptied one gives the
same for both lists. -/
theorem map_eq {value : Type} {f : Node → value} (agree : AgreeEmptied ns ms)
    (blind : ∀ n, f n.emptied = f n) : ns.map f = ms.map f := by
  have throughEmptied : ∀ ks : List Node, ks.map f = (ks.map emptied).map f := by
    intro ks
    rw [List.map_map]
    exact List.map_congr_left fun n _ => (blind n).symm
  rw [throughEmptied, agree, ← throughEmptied]

theorem filter_of_mem {p : Node → Bool} (agree : AgreeEmptied ns ms)
    (left : ∀ n ∈ ns, p n.emptied = p n) (right : ∀ n ∈ ms, p n.emptied = p n) :
    AgreeEmptied (ns.filter p) (ms.filter p) := by
  have throughEmptied : ∀ ks : List Node, (∀ n ∈ ks, p n.emptied = p n) →
      (ks.filter p).map emptied = (ks.map emptied).filter p := by
    intro ks blind
    rw [List.filter_map]
    exact congrArg (List.map emptied) (List.filter_congr fun n member => (blind n member).symm)
  rw [AgreeEmptied, throughEmptied ns left, agree, ← throughEmptied ms right]

theorem filter {p : Node → Bool} (agree : AgreeEmptied ns ms) (blind : ∀ n, p n.emptied = p n) :
    AgreeEmptied (ns.filter p) (ms.filter p) :=
  agree.filter_of_mem (fun n _ => blind n) (fun n _ => blind n)

theorem flatMap {part : Node → List Node} (agree : AgreeEmptied ns ms)
    (blind : ∀ n, AgreeEmptied (part n.emptied) (part n)) :
    AgreeEmptied (ns.flatMap part) (ms.flatMap part) := by
  have throughEmptied : ∀ ks : List Node,
      (ks.flatMap part).map emptied = (ks.map emptied).flatMap fun n => (part n).map emptied := by
    intro ks
    rw [List.map_flatMap, List.flatMap_map]
    exact List.flatMap_congr fun n _ => (blind n).symm
  rw [AgreeEmptied, throughEmptied, agree, ← throughEmptied]

theorem exists_mem (agree : AgreeEmptied ns ms) (member : n ∈ ns) :
    ∃ m ∈ ms, n.emptied = m.emptied := by
  have listed : n.emptied ∈ ms.map emptied := agree ▸ List.mem_map_of_mem member
  obtain ⟨m, inOther, same⟩ := List.mem_map.mp listed
  exact ⟨m, inOther, same.symm⟩

theorem any_eq {p : Node → Bool} (agree : AgreeEmptied ns ms) (blind : ∀ n, p n.emptied = p n) :
    ns.any p = ms.any p := by
  have same := congrArg (List.any · id) (agree.map_eq blind)
  simpa [List.any_map] using same

theorem all_eq {p : Node → Bool} (agree : AgreeEmptied ns ms) (blind : ∀ n, p n.emptied = p n) :
    ns.all p = ms.all p := by
  have same := congrArg (List.all · id) (agree.map_eq blind)
  simpa [List.all_map] using same

theorem isEmpty_eq (agree : AgreeEmptied ns ms) : ns.isEmpty = ms.isEmpty := by
  have same := congrArg List.isEmpty agree
  simpa using same

/-- Parts of nodes that agree list by list agree as a whole. -/
theorem flatMap_map_emptied {part : Node → List Node}
    (each : ∀ n ∈ ns, AgreeEmptied (part n.emptied) (part n)) :
    AgreeEmptied ((ns.map emptied).flatMap part) (ns.flatMap part) := by
  rw [AgreeEmptied, List.flatMap_map, List.map_flatMap, List.map_flatMap]
  exact List.flatMap_congr each

end AgreeEmptied

/-! ## Terminals -/

theorem agreeEmptied_lastTerminals {block block' : Node} {ns : List Node}
    (blockSame : AgreeEmptied [block'] [block])
    (each : ∀ n ∈ ns, AgreeEmptied n.emptied.terminals n.terminals) :
    AgreeEmptied (lastTerminals block' (ns.map emptied)) (lastTerminals block ns) := by
  induction ns with
  | nil => exact blockSame
  | cons n rest inductionHypothesis =>
      cases rest with
      | nil => exact each n List.mem_cons_self
      | cons next others =>
          exact inductionHypothesis fun m member => each m (List.mem_cons_of_mem n member)

/-- Pattern and body of a branch, and what is left of them when it is emptied. -/
theorem IsWellShaped.branchParts_emptied (shaped : n.IsWellShaped) (isBranch : n.kind = .branch) :
    ∃ pattern body rest body' rest', n.children = pattern :: body :: rest ∧
      n.emptied.children = pattern :: body' :: rest' ∧ (body' = body ∨ body' = body.emptied) := by
  obtain ⟨pattern, body, rest, children, _, _⟩ := shaped.exists_pair (by rw [isBranch]; rfl)
  obtain ⟨kept, keeps⟩ := Nat.exists_eq_add_one.mpr (readWhole_pos_of_branch isBranch)
  have emptiedChildren : n.emptied.children = pattern :: emptiedAfter kept (body :: rest) := by
    rw [children_emptied (by simp [isBranch]), keeps, children, emptiedAfter_succ]
  cases kept with
  | zero => exact ⟨pattern, body, rest, _, _, children, emptiedChildren, Or.inr rfl⟩
  | succ kept => exact ⟨pattern, body, rest, _, _, children, emptiedChildren, Or.inl rfl⟩

theorem armTerminals_cons {arm pattern body : Node} {parts rest : List Node}
    (children : arm.children = pattern :: body :: parts) :
    armTerminals (arm :: rest) = body.terminals ++ armTerminals rest := by
  obtain ⟨kind, span, attributes, _⟩ := arm
  cases children
  rfl

theorem agreeEmptied_armTerminals {arms : List Node}
    (areBranches : ∀ arm ∈ arms, arm.kind = .branch ∧ arm.IsWellShaped)
    (each : ∀ arm ∈ arms, ∀ body ∈ arm.children,
      AgreeEmptied body.emptied.terminals body.terminals) :
    AgreeEmptied (armTerminals (arms.map emptied)) (armTerminals arms) := by
  induction arms with
  | nil => rfl
  | cons arm rest inductionHypothesis =>
      obtain ⟨isBranch, shaped⟩ := areBranches arm List.mem_cons_self
      obtain ⟨pattern, body, others, body', others', children, emptiedChildren, same⟩ :=
        shaped.branchParts_emptied isBranch
      have here : AgreeEmptied body'.terminals body.terminals := by
        rcases same with rfl | rfl
        · rfl
        · exact each arm List.mem_cons_self body (by simp [children])
      have later := inductionHypothesis
        (fun other member => areBranches other (List.mem_cons_of_mem arm member))
        (fun other member => each other (List.mem_cons_of_mem arm member))
      rw [List.map_cons, armTerminals_cons emptiedChildren, armTerminals_cons children]
      exact here.append later

theorem agreeEmptied_doTerminals {ns : List Node}
    (each : ∀ n ∈ ns, AgreeEmptied n.emptied.terminals n.terminals) :
    AgreeEmptied (doTerminals (ns.map emptied)) (doTerminals ns) := by
  induction ns with
  | nil => rfl
  | cons n rest inductionHypothesis =>
      rw [List.map_cons, doTerminals, doTerminals, kind_emptied]
      split
      · exact each n List.mem_cons_self
      · exact inductionHypothesis fun m member => each m (List.mem_cons_of_mem n member)

theorem elseTerminals_cons {whole : Node} {rest : List Node} :
    elseTerminals whole (n :: rest) =
      if n.kind = .elseBlock then armTerminals n.children else elseTerminals whole rest := by
  cases n
  rfl

theorem agreeEmptied_elseTerminals {whole whole' : Node} {ns : List Node}
    (wholeSame : AgreeEmptied [whole'] [whole]) (shaped : ∀ n ∈ ns, n.IsWellShaped)
    (each : ∀ n ∈ ns, ∀ m ∈ n.preorder, AgreeEmptied m.emptied.terminals m.terminals) :
    AgreeEmptied (elseTerminals whole' (ns.map emptied)) (elseTerminals whole ns) := by
  induction ns with
  | nil => exact wholeSame
  | cons n rest inductionHypothesis =>
      have here := shaped n List.mem_cons_self
      have below := each n List.mem_cons_self
      rw [List.map_cons, elseTerminals_cons, elseTerminals_cons, kind_emptied]
      split
      · rename_i isElse
        rw [children_emptied_of_readsByParts (by rw [isElse]; rfl)]
        refine agreeEmptied_armTerminals (here.branches (by rw [isElse]; rfl)) ?_
        intro arm armMember body bodyMember
        exact below body (mem_preorder_trans (mem_preorder_of_mem_children bodyMember)
          (mem_preorder_of_mem_children armMember))
      · exact inductionHypothesis (fun m member => shaped m (List.mem_cons_of_mem n member))
          (fun m member => each m (List.mem_cons_of_mem n member))

/-- The return sites of a tree agree with those of the emptied one. -/
theorem IsWellShaped.agreeEmptied_terminals (shaped : n.IsWellShaped) :
    AgreeEmptied n.emptied.terminals n.terminals := by
  -- As for the look-ups of terminals, children are not enough for the bodies of branches.
  induction n using descendantInduction with
  | step n inductionHypothesis =>
      have below : ∀ child ∈ n.children, ∀ m ∈ child.preorder,
          AgreeEmptied m.emptied.terminals m.terminals := by
        intro child member m inside
        exact inductionHypothesis child member m inside ((shaped.of_child member).of_mem inside)
      have childrenAgree : ∀ child ∈ n.children,
          AgreeEmptied child.emptied.terminals child.terminals :=
        fun child member => below child member child (mem_preorder_self child)
      have bodiesAgree : ∀ arm ∈ n.children, ∀ body ∈ arm.children,
          AgreeEmptied body.emptied.terminals body.terminals :=
        fun arm member body inside => below arm member body (mem_preorder_of_mem_children inside)
      have childrenShaped : ∀ child ∈ n.children, child.IsWellShaped :=
        fun child member => shaped.of_child member
      have itself := AgreeEmptied.singleton_emptied n
      obtain ⟨kind, span, attributes, children⟩ := n
      cases kind with
      | block =>
          rw [emptied_of_readsByParts rfl] at itself ⊢
          exact agreeEmptied_lastTerminals itself childrenAgree
      | ifExpr =>
          obtain ⟨condition, consequent, rest, rfl, _, _⟩ := shaped.exists_pair rfl
          have first := childrenAgree consequent (by simp)
          cases rest with
          | nil => exact first.append itself
          | cons alternative others =>
              exact first.append (childrenAgree alternative (by simp))
      | caseExpr =>
          have arms := shaped.caseBranches rfl
          cases children with
          | nil => rfl
          | cons subject arms' =>
              rw [emptied_of_readsByParts rfl]
              exact agreeEmptied_armTerminals arms fun arm member =>
                bodiesAgree arm (List.mem_cons_of_mem subject member)
      | condExpr =>
          rw [emptied_of_readsByParts rfl]
          exact agreeEmptied_armTerminals (shaped.branches rfl) bodiesAgree
      | withExpr =>
          rw [emptied_of_readsByParts rfl] at itself ⊢
          exact (agreeEmptied_doTerminals childrenAgree).append
            (agreeEmptied_elseTerminals itself childrenShaped below)
      | matchExpr =>
          obtain ⟨pattern, value, rest, rfl, _, _⟩ := shaped.exists_pair rfl
          have ofValue := childrenAgree value (by simp)
          have finds : ∀ value rest,
              terminals ⟨.matchExpr, span, attributes, pattern :: value :: rest⟩ =
                if pattern.holdsVariable then value.terminals else [pattern] := fun _ _ => rfl
          have emptiedMatch : emptied ⟨.matchExpr, span, attributes, pattern :: value :: rest⟩ =
              ⟨.matchExpr, span, attributes, pattern :: value.emptied :: emptiedAfter 0 rest⟩ := rfl
          -- The pattern is kept, so it holds the same variables.
          rw [emptiedMatch, finds, finds]
          split
          · exact ofValue
          · rfl
      | _ => exact itself

end StyleAudit.Node
