import StyleAudit.Module.Scope
import StyleAudit.Proofs.Outcome

/-!
# Functions with changed clauses

Clauses are joined by their names, numbers of parameters and visibilities. When
each clause is changed but for these, the functions are the same with changed
clauses (`groupClauses_map`), and a call binds to the same one of them
(`resolveIn_mapClauses`).
-/

namespace StyleAudit

open Outcome (mapBoth)

variable {change : Clause → Clause} {onFault : ModuleFault → ModuleFault} {clause : Clause}
  {clauses : List Clause}

/-- The function with its clauses changed. -/
def FunctionGroup.mapClauses (change : Clause → Clause) (group : FunctionGroup) :
    FunctionGroup :=
  { group with
    first := change group.first
    others := group.others.map change }

/-- The change leaves what decides about the function of a clause; where a
clause is at fault, the fault changes with it. -/
structure Clause.StaysGrouped (change : Clause → Clause) (onFault : ModuleFault → ModuleFault)
    (clause : Clause) : Prop where
  key : (change clause).key = clause.key
  minArity : (change clause).minArity = clause.minArity
  visibility : (change clause).visibility = clause.visibility
  fault : onFault (.mixedVisibility clause.key clause.node.span) =
    .mixedVisibility clause.key (change clause).node.span

namespace FunctionGroup

theorem clauses_mapClauses (group : FunctionGroup) :
    (group.mapClauses change).clauses = group.clauses.map change :=
  rfl

theorem ofClause_change (stays : clause.StaysGrouped change onFault) (position : Nat) :
    ofClause position (change clause) = (ofClause position clause).mapClauses change := by
  rw [ofClause, ofClause, stays.key, stays.minArity, stays.visibility]
  rfl

theorem addClause_change (stays : clause.StaysGrouped change onFault) (group : FunctionGroup) :
    (group.mapClauses change).addClause (change clause) =
      (group.addClause clause).mapClauses change := by
  simp only [addClause, mapClauses, stays.minArity, List.map_append, List.map_cons, List.map_nil]

end FunctionGroup

/-- A change that keeps what clauses are grouped by can be made before or after a
clause is inserted. -/
theorem insertClause_map (stays : clause.StaysGrouped change onFault)
    (groups : List FunctionGroup) :
    insertClause (groups.map (·.mapClauses change)) (change clause) =
      mapBoth onFault (List.map (·.mapClauses change)) (insertClause groups clause) := by
  have sameFind : (groups.map (·.mapClauses change)).find? (·.key == clause.key) =
      (groups.find? (·.key == clause.key)).map (·.mapClauses change) :=
    List.find?_map
  rw [insertClause, insertClause, stays.key, sameFind]
  cases groups.find? (·.key == clause.key) with
  | none =>
      simp only [Option.map_none, mapBoth, List.map_append, List.map_cons, List.map_nil,
        List.length_map, FunctionGroup.ofClause_change stays]
  | some group =>
      have sameVisibility : (group.mapClauses change).visibility = group.visibility := rfl
      simp only [Option.map_some, stays.visibility, sameVisibility]
      by_cases agrees : group.visibility = clause.visibility
      · rw [if_pos agrees, if_pos agrees, mapBoth, List.map_map, List.map_map]
        refine congrArg Except.ok (List.map_congr_left fun other _ => ?_)
        have sameKey : (other.mapClauses change).key = other.key := rfl
        rw [Function.comp_apply, Function.comp_apply, sameKey,
          FunctionGroup.addClause_change stays]
        split <;> rfl
      · rw [if_neg agrees, if_neg agrees, mapBoth, stays.fault]

/-- Grouping commutes with every change that keeps key, arity and visibility of each
clause. -/
theorem groupClauses_map (stay : ∀ clause ∈ clauses, clause.StaysGrouped change onFault) :
    groupClauses (clauses.map change) =
      mapBoth onFault (List.map (·.mapClauses change)) (groupClauses clauses) :=
  Outcome.foldlM_mapBoth (fun clause member => insertClause_map (stay clause member)) []

theorem resolveIn_mapClauses (functions : List FunctionGroup) (key : FunctionKey) :
    resolveIn (functions.map (·.mapClauses change)) key =
      (resolveIn functions key).map (·.mapClauses change) := by
  have accepts : ∀ group : FunctionGroup, (group.mapClauses change).accepts key.arity =
    group.accepts key.arity := fun _ => rfl
  have sameKey : ∀ group : FunctionGroup, (group.mapClauses change).key = group.key :=
    fun _ => rfl
  simp only [resolveIn, List.find?_map, Function.comp_def, Option.map_or, accepts, sameKey]

end StyleAudit
