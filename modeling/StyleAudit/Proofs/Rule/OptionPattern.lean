import StyleAudit.Proofs.Module.FunctionIndex
import StyleAudit.Rule.OptionFormat
import StyleAudit.Settings.Defaults

/-!
# Options and the grouping of matches

A parameter is a pattern with any number of defaults around it, and the pattern
may join several others by matches, grouped in some way. Whether it names options
depends on the patterns that are joined alone (`namesOptions_iff`). A map makes it
report if it is the innermost default, or if it stands on a side of the outermost
match; one that is joined further inside is not seen. Two groupings of the same
patterns are therefore judged alike exactly when nothing hangs on the outermost
match or both have a map on a side of it (`regrouped_alike_iff`).
-/

namespace StyleAudit.OptionFormat

/-! ## The parts of a parameter -/

/-- The default values of a parameter, the outermost first. -/
def defaultValues : Node → List Node
  | ⟨.default, _, _, pattern :: value :: _⟩ => value :: defaultValues pattern
  | _ => []
  termination_by structural n => n

/-- The pattern of a parameter without its defaults. -/
def withoutDefaults : Node → Node
  | ⟨.default, _, _, pattern :: _ :: _⟩ => withoutDefaults pattern
  | n => n
  termination_by structural n => n

/-- The patterns that nested matches join, from left to right. -/
def joined : Node → List Node
  | ⟨.matchExpr, _, _, left :: right :: _⟩ => joined left ++ joined right
  | n => [n]
  termination_by structural n => n

/-- A variable with an option name. -/
def IsOption (names : List String) (n : Node) : Prop :=
  n.kind = .var ∧ n.name ∈ names

/-- A map stands on a side of the outermost match. -/
def HasMapBeside (n : Node) : Prop :=
  n.kind = .matchExpr ∧
    ∃ left right rest, n.children = left :: right :: rest ∧ (left.kind = .map ∨ right.kind = .map)

variable {names : List String} {n p q : Node}

theorem withoutDefaults_of_defaultValues_eq_nil (bare : defaultValues n = []) :
    withoutDefaults n = n := by
  fun_cases withoutDefaults n with
  | case1 => cases bare
  | case2 => rfl

theorem kind_of_defaultValues_eq_cons {value : Node} {values : List Node}
    (given : defaultValues n = value :: values) : n.kind = .default := by
  fun_cases defaultValues n with
  | case1 => rfl
  | case2 n noDefault =>
      rw [defaultValues] at given
      · cases given
      · exact noDefault

theorem namesOptions_of_default (isDefault : n.kind = .default) : namesOptions names n = false := by
  obtain ⟨kind, span, attributes, children⟩ := n
  cases isDefault
  rfl

/-- A parameter names options if one of the patterns that it joins does so. -/
theorem namesOptions_iff :
    namesOptions names n = true ↔ ∃ leaf ∈ joined n, IsOption names leaf := by
  fun_induction joined n with
  | case1 span attributes left right rest leftIff rightIff =>
      rw [namesOptions, Bool.or_eq_true, leftIff, rightIff]
      simp only [List.mem_append, or_and_right, exists_or]
  | case2 n noMatch =>
      simp only [List.mem_singleton, exists_eq_left]
      obtain ⟨kind, span, attributes, children⟩ := n
      cases kind with
      | var => simp [namesOptions, IsOption]
      | matchExpr =>
          match children with
          | left :: right :: rest => exact absurd rfl (noMatch _ _ _ _ _)
          | [] => simp [namesOptions, IsOption]
          | [_] => simp [namesOptions, IsOption]
      | _ => simp [namesOptions, IsOption]

theorem hasMapBeside_iff {span : Span} {attributes : Attributes} {left right : Node}
    {rest : List Node} :
    HasMapBeside ⟨.matchExpr, span, attributes, left :: right :: rest⟩ ↔
      left.kind = .map ∨ right.kind = .map := by
  constructor
  · rintro ⟨_, _, _, _, same, beside⟩
    cases same
    exact beside
  · intro beside
    exact ⟨rfl, left, right, rest, rfl, beside⟩

/-- A parameter without a default takes options as a map if it names them and has a
map beside its outermost match. -/
theorem takesOptionMap_of_bare (bare : defaultValues p = []) :
    takesOptionMap names p = true ↔ namesOptions names p = true ∧ HasMapBeside p := by
  by_cases isMatch : p.kind = .matchExpr
  · obtain ⟨kind, span, attributes, children⟩ := p
    cases isMatch
    match children with
    | left :: right :: rest =>
        rw [takesOptionMap, Bool.and_eq_true, Bool.or_eq_true, beq_iff_eq, beq_iff_eq,
          hasMapBeside_iff]
    | [] => simp [takesOptionMap, namesOptions]
    | [_] => simp [takesOptionMap, namesOptions]
  · have noMap : ¬HasMapBeside p := fun beside => isMatch beside.1
    have unreported : takesOptionMap names p = false := by
      obtain ⟨kind, span, attributes, children⟩ := p
      cases kind with
      | matchExpr => exact absurd rfl isMatch
      | default =>
          match children with
          | _ :: _ :: _ => cases bare
          | [] => rfl
          | [_] => rfl
      | _ => rfl
    simp [unreported, noMap]

/-- A parameter is reported when one of the joined patterns is an option and the
innermost default is a map or a map stands beside the outermost match. -/
theorem takesOptionMap_iff :
    takesOptionMap names p = true ↔
      (∃ leaf ∈ joined (withoutDefaults p), IsOption names leaf) ∧
        ((∃ value ∈ (defaultValues p).getLast?, value.kind = .map) ∨
          HasMapBeside (withoutDefaults p)) := by
  rw [← namesOptions_iff]
  fun_induction defaultValues p with
  | case1 span attributes pattern value rest patternIff =>
      rw [takesOptionMap, Bool.or_eq_true, patternIff, withoutDefaults, Bool.and_eq_true,
        beq_iff_eq]
      cases values : defaultValues pattern with
      | nil =>
          -- The value is the innermost default.
          rw [withoutDefaults_of_defaultValues_eq_nil values]
          simp only [List.getLast?_nil, List.getLast?_singleton, Option.mem_def, Option.some.injEq,
            exists_eq_left', reduceCtorEq, false_and, exists_false, false_or]
          tauto
      | cons inner others =>
          rw [namesOptions_of_default (kind_of_defaultValues_eq_cons values),
            List.getLast?_cons_cons]
          simp
  | case2 p noDefault =>
      have bare : defaultValues p = [] := by
        rw [defaultValues]
        exact noDefault
      rw [takesOptionMap_of_bare bare, withoutDefaults_of_defaultValues_eq_nil bare]
      simp

/-! ## Other groupings -/

theorem exists_option_of_perm (names : List String) (regrouped : (joined p).Perm (joined q)) :
    (∃ leaf ∈ joined p, IsOption names leaf) ↔ ∃ leaf ∈ joined q, IsOption names leaf := by
  simp only [regrouped.mem_iff]

/-- What the rule finds about one parameter. -/
def paramFindings (names : List String) (param : Node) : List Finding :=
  if takesOptionMap names param then [optionMap param] else []

theorem paramFindings_ne_nil_iff : paramFindings names p ≠ [] ↔ takesOptionMap names p = true := by
  simp [paramFindings]

/-- A function with other parameters. -/
def withParams (f : Node) (params : List Node) : Node :=
  match f.children with
  | list :: rest => { f with children := { list with children := params } :: rest }
  | [] => f

/-- What the rule finds about a function is found about its parameters one by one,
and about what it returns. -/
theorem check_withParams {f list body : Node} {rest : List Node}
    (formed : f.children = list :: body :: rest) (names : List String) (params : List Node) :
    check names (withParams f params) =
      params.flatMap (paramFindings names) ++
        (body.terminals.filter (·.isStatusList)).map statusList := by
  have oneByOne : (params.filter (takesOptionMap names)).map optionMap =
      params.flatMap (paramFindings names) := by
    induction params with
    | nil => rfl
    | cons param others inductionHypothesis =>
        rw [List.flatMap_cons, ← inductionHypothesis, paramFindings]
        cases takes : takesOptionMap names param with
        | true => simp [takes]
        | false => simp [takes]
  rw [← oneByOne, check, withParams, formed]

/-- A parameter whose pattern joins the same patterns in another grouping, below
the same defaults, is the only thing about the function that may be judged
differently. It is judged alike exactly when no joined pattern is an option, the
innermost default is a map, or both groupings have a map beside the outermost match
or neither has one. -/
theorem regrouped_alike_iff (names : List String) (f list body : Node) (rest : List Node)
    (formed : f.children = list :: body :: rest) (before after : List Node) (p q : Node)
    (sameDefaults : defaultValues q = defaultValues p)
    (regrouped : (joined (withoutDefaults q)).Perm (joined (withoutDefaults p))) :
    ∃ earlier later,
      check names (withParams f (before ++ p :: after)) =
        earlier ++ paramFindings names p ++ later ∧
      check names (withParams f (before ++ q :: after)) =
        earlier ++ paramFindings names q ++ later ∧
      ((paramFindings names p ≠ [] ↔ paramFindings names q ≠ []) ↔
        (∀ leaf ∈ joined (withoutDefaults p), ¬IsOption names leaf) ∨
        (∃ value ∈ (defaultValues p).getLast?, value.kind = .map) ∨
        (HasMapBeside (withoutDefaults p) ↔ HasMapBeside (withoutDefaults q))) := by
  refine ⟨before.flatMap (paramFindings names),
    after.flatMap (paramFindings names) ++
      (body.terminals.filter (·.isStatusList)).map statusList, ?_, ?_, ?_⟩
  · simp [check_withParams formed]
  · simp [check_withParams formed]
  · have sameOptions := exists_option_of_perm names regrouped
    rw [paramFindings_ne_nil_iff, paramFindings_ne_nil_iff, takesOptionMap_iff, takesOptionMap_iff,
      sameDefaults, sameOptions]
    by_cases option : ∃ leaf ∈ joined (withoutDefaults p), IsOption names leaf
    · have someOption : ¬∀ leaf ∈ joined (withoutDefaults p), ¬IsOption names leaf := by
        simpa using option
      by_cases innermost : ∃ value ∈ (defaultValues p).getLast?, value.kind = .map
      · simp only [option, innermost, true_or, or_true]
      · simp only [option, innermost, someOption, true_and, false_or]
    · have noOption : ∀ leaf ∈ joined (withoutDefaults p), ¬IsOption names leaf := by
        simpa using option
      simp only [option, false_and, true_iff]
      exact Or.inl noOption

/-! ## A map inside a match -/

def paramVar (name : String) : Node :=
  ⟨.var, lineSpan 2, [("name", .one (.text name))], []⟩

def emptyMap : Node :=
  ⟨.map, lineSpan 2, [], []⟩

def matching (left right : Node) : Node :=
  ⟨.matchExpr, lineSpan 2, [], [left, right]⟩

def withDefault (pattern value : Node) : Node :=
  ⟨.default, lineSpan 2, [], [pattern, value]⟩

/-- `opts = (map = all)` -/
def mapInside : Node :=
  matching (paramVar "opts") (matching emptyMap (paramVar "all"))

/-- `(opts = all) = map` -/
def mapOutside : Node :=
  matching (matching (paramVar "opts") (paramVar "all")) emptyMap

theorem mapOutside_regroups_mapInside : (joined mapOutside).Perm (joined mapInside) :=
  (List.Perm.swap _ _ []).cons _

theorem regrouped_alike_iff_mapDefault :
    ∃ earlier later,
      check Defaults.optionNames
          (functionForm 2 "f" "public" [withDefault mapInside emptyMap] []) =
        earlier ++ paramFindings Defaults.optionNames (withDefault mapInside emptyMap) ++ later ∧
      check Defaults.optionNames
          (functionForm 2 "f" "public" [withDefault mapOutside emptyMap] []) =
        earlier ++ paramFindings Defaults.optionNames (withDefault mapOutside emptyMap) ++ later ∧
      paramFindings Defaults.optionNames (withDefault mapInside emptyMap) ≠ [] ∧
      paramFindings Defaults.optionNames (withDefault mapOutside emptyMap) ≠ [] := by
  have reported : paramFindings Defaults.optionNames (withDefault mapInside emptyMap) ≠ [] := by
    decide
  obtain ⟨earlier, later, inside, outside, alike⟩ :=
    regrouped_alike_iff Defaults.optionNames (functionForm 2 "f" "public" [] [])
      _ _ [] rfl [] [] (withDefault mapInside emptyMap) (withDefault mapOutside emptyMap) rfl
      mapOutside_regroups_mapInside
  have alikeHere := alike.mpr (Or.inr (Or.inl ⟨emptyMap, rfl, rfl⟩))
  exact ⟨earlier, later, inside, outside, reported, alikeHere.mp reported⟩

/-- A map given for options is reported in one grouping of the match and not in the
other. -/
theorem regrouping_hides_map :
    defaultValues mapOutside = defaultValues mapInside ∧
      (joined (withoutDefaults mapOutside)).Perm (joined (withoutDefaults mapInside)) ∧
      check Defaults.optionNames (functionForm 2 "f" "public" [mapOutside] []) =
        [optionMap mapOutside] ∧
      check Defaults.optionNames (functionForm 2 "f" "public" [mapInside] []) = [] :=
  ⟨rfl, mapOutside_regroups_mapInside, by decide, by decide⟩

end StyleAudit.OptionFormat
