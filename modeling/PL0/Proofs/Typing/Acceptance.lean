import PL0.Proofs.Scope.Frames
import PL0.Proofs.Typing.Judgement
import PL0.Typing.Check

/-!
# What checking accepts in a function

Where a scope table resolves names the way an environment declares them, an
expression, a condition or a statement is checked without an error exactly if
it is well typed there.  A part whose type cannot be told silences its
surroundings, but not itself: when nothing was reported, every part has a
type.
-/

namespace PL0

/-- A table resolves names the way an environment declares them. -/
structure ScopeTable.Represents (table : ScopeTable)
    (environment : Environment) : Prop where
  var_iff : ∀ name type, (name, type) ∈ environment.vars ↔
    ∃ role position, table.resolve? name = some (.var type role position)
  calls_iff : ∀ name params, environment.Calls name params ↔
    ∃ position, table.resolve? name = some (.function params position)

namespace ScopeTable

variable {table : ScopeTable} {environment : Environment}

theorem Represents.placeType_scalar_iff
    (represents : table.Represents environment)
    (allowArray : Bool) (name : String) (base : BaseType) :
    table.placeType allowArray name false = .ok (.scalar base) ↔
      (name, .scalar base) ∈ environment.vars := by
  rw [represents.var_iff]
  unfold placeType
  cases allowArray <;> grind

theorem Represents.placeType_array_iff
    (represents : table.Represents environment)
    (allowArray : Bool) (name : String) (base : BaseType) :
    table.placeType allowArray name false = .ok (.array base) ↔
      allowArray = true ∧ (name, .array base) ∈ environment.vars := by
  rw [represents.var_iff]
  unfold placeType
  cases allowArray <;> grind

theorem Represents.placeType_element_iff
    (represents : table.Represents environment)
    (allowArray : Bool) (name : String) (type : ValueType) :
    table.placeType allowArray name true = .ok type ↔
      ∃ base, type = .scalar base ∧ (name, .array base) ∈ environment.vars := by
  simp only [represents.var_iff]
  unfold placeType
  cases allowArray <;> grind

theorem Represents.callParams_eq_ok_iff
    (represents : table.Represents environment)
    (callee : String) (count : Nat) (params : List ValueType) :
    table.callParams callee count = .ok params ↔
      environment.Calls callee params ∧ params.length = count := by
  rw [represents.calls_iff]
  unfold callParams
  grind

/-- A call whose parameters are known has a type. -/
theorem callType_of_callParams {callee : String} {count : Nat}
    {params : List ValueType}
    (found : table.callParams callee count = .ok params) :
    table.callType callee = some .int := by
  unfold callParams at found
  unfold callType
  grind

end ScopeTable

namespace Checked

/-- Nothing was reported and a type was found. -/
def Accepts (checked : Checked (Option ValueType)) (type : ValueType) : Prop :=
  checked.errors = [] ∧ checked.value = some type

@[simp]
theorem errors_report (fault : SemanticFault) (position : Position) :
    (report fault position).errors = [⟨fault, position⟩] :=
  rfl

@[simp]
theorem errors_record (node : Node) (type? : Option ValueType) :
    (record node type?).errors = [] :=
  rfl

@[simp]
theorem value_record (node : Node) (type? : Option ValueType) :
    (record node type?).value = type? :=
  rfl

@[simp]
theorem errors_compare_eq_nil_iff (context : TypeContext) (position : Position)
    (expected? found? : Option ValueType) :
    (compare context position expected? found?).errors = [] ↔
      ∀ expected found, expected? = some expected → found? = some found →
        expected = found := by
  unfold compare
  split
  · next expected found =>
      by_cases same : expected = found <;> simp [same]
  · next notBoth =>
      refine ⟨fun _ expected found expectedEq foundEq => ?_, fun _ => rfl⟩
      exact (notBoth expected found expectedEq foundEq).elim

theorem commonType_eq_some_iff (left? right? : Option ValueType)
    (type : ValueType) :
    commonType left? right? = some type ↔
      left? = some type ∧ right? = some type := by
  unfold commonType
  grind

section Expressions

variable {table : ScopeTable} {environment : Environment}

/-- A call in an expression is checked like a call on its own. -/
theorem expr_call_eq (allowArray : Bool) (node : Node) (callee : String)
    (args : List Expr) :
    expr table allowArray (.call node callee args) =
      (call table node.position callee args >>= fun _ =>
        record node (table.callType callee)) := by
  simp only [expr, call]
  cases table.callParams callee args.length <;> rfl

/-- A place of which nothing was reported has a type. -/
theorem place_value_of_errors {allowArray : Bool} {held : Place}
    (clean : (place table allowArray held).errors = []) :
    ∃ type, (place table allowArray held).value = some type := by
  cases held with
  | var node name =>
      cases found : table.placeType allowArray name false with
      | error fault => simp [place, found] at clean
      | ok type => exact ⟨type, by simp [place, found]⟩
  | element node name index =>
      cases found : table.placeType allowArray name true with
      | error fault => simp [place, found] at clean
      | ok type => exact ⟨type, by simp [place, found]⟩

/-- An expression of which nothing was reported has a type. -/
theorem expr_value_of_errors : ∀ {allowArray : Bool} (e : Expr),
    (expr table allowArray e).errors = [] →
      ∃ type, (expr table allowArray e).value = some type
  | _, .int node value, _ => ⟨.int, by simp [expr]⟩
  | _, .float node value, _ => ⟨.float, by simp [expr]⟩
  | allowArray, .valueOf node held, clean => by
      have heldClean : (place table allowArray held).errors = [] := by
        simpa [expr] using clean
      obtain ⟨type, found⟩ := place_value_of_errors heldClean
      exact ⟨type, by simp [expr, found]⟩
  | _, .binary node op left right, clean => by
      simp only [expr, errors_bind, List.append_eq_nil_iff,
        errors_compare_eq_nil_iff] at clean
      obtain ⟨leftClean, rightClean, agree, _⟩ := clean
      obtain ⟨leftType, leftFound⟩ := expr_value_of_errors left leftClean
      obtain ⟨rightType, rightFound⟩ := expr_value_of_errors right rightClean
      have same := agree leftType rightType leftFound rightFound
      exact ⟨leftType, by simp [expr, leftFound, rightFound, same, commonType]⟩
  | _, .signed node op operand, clean => by
      have operandClean : (expr table false operand).errors = [] := by
        simpa [expr] using clean
      obtain ⟨type, found⟩ := expr_value_of_errors operand operandClean
      exact ⟨type, by simp [expr, found]⟩
  | _, .call node callee args, clean => by
      cases found : table.callParams callee args.length with
      | error fault => simp [expr_call_eq, call, found] at clean
      | ok params =>
          exact ⟨.int,
            by simp [expr_call_eq, ScopeTable.callType_of_callParams found]⟩
  | _, .cast node target operand, _ => ⟨.scalar target, by simp [expr]⟩

/-- Only a place can be found to be a whole array, and only where that is
allowed. -/
theorem expr_value_eq_array :
    ∀ {allowArray : Bool} (e : Expr) {base : BaseType},
    (expr table allowArray e).value = some (.array base) →
      allowArray = true ∧ ∃ node placeNode name, e =
        .valueOf node (.var placeNode name)
  | allowArray, .valueOf node (.var placeNode name), base, found => by
      refine ⟨?_, node, placeNode, name, rfl⟩
      cases typed : table.placeType allowArray name false with
      | error fault => simp [expr, place, typed] at found
      | ok type =>
          simp only [expr, place, typed, value_bind, value_record,
            Option.some.injEq] at found
          subst found
          unfold ScopeTable.placeType at typed
          grind
  | allowArray, .valueOf node (.element placeNode name index), base, found => by
      cases typed : table.placeType allowArray name true with
      | error fault => simp [expr, place, typed] at found
      | ok type =>
          simp only [expr, place, typed, value_bind, value_record,
            Option.some.injEq] at found
          subst found
          unfold ScopeTable.placeType at typed
          grind
  | _, .int .., _, found => by simp [expr, ValueType.int] at found
  | _, .float .., _, found => by simp [expr, ValueType.float] at found
  | _, .binary node op left right, base, found => by
      simp only [expr, value_bind, value_record,
        commonType_eq_some_iff] at found
      obtain ⟨disallowed, _⟩ := expr_value_eq_array left found.1
      simp at disallowed
  | _, .signed node op operand, base, found => by
      simp only [expr, value_bind, value_record] at found
      obtain ⟨disallowed, _⟩ := expr_value_eq_array operand found
      simp at disallowed
  | _, .call node callee args, base, found => by
      simp only [expr_call_eq, value_bind, value_record] at found
      unfold ScopeTable.callType at found
      grind [ValueType.int]
  | _, .cast .., _, found => by simp [expr] at found

/-- To compare the type that was found with the one that is wanted is to ask
for the latter. -/
theorem expr_accepts_iff_compare (allowArray : Bool) (e : Expr)
    (context : TypeContext) (position : Position) (type : ValueType) :
    (expr table allowArray e).Accepts type ↔
      (expr table allowArray e).errors = [] ∧
        (compare context position (some type)
          (expr table allowArray e).value).errors = [] := by
  rw [errors_compare_eq_nil_iff]
  constructor
  · rintro ⟨clean, found⟩
    refine ⟨clean, ?_⟩
    intro expected other expectedEq otherEq
    rw [found] at otherEq
    exact (Option.some.inj expectedEq).symm.trans (Option.some.inj otherEq)
  · rintro ⟨clean, agree⟩
    obtain ⟨other, found⟩ := expr_value_of_errors e clean
    refine ⟨clean, ?_⟩
    rw [found, agree type other rfl found]

/-- What is accepted as a whole array is a bare name that can be passed as
one. -/
theorem expr_accepts_array_iff (represents : table.Represents environment)
    (allowArray : Bool) (e : Expr) (base : BaseType) :
    (expr table allowArray e).Accepts (.array base) ↔
      allowArray = true ∧ e.PassesAs environment (.array base) := by
  constructor
  · rintro ⟨clean, found⟩
    obtain ⟨allowed, node, placeNode, name, rfl⟩ := expr_value_eq_array e found
    refine ⟨allowed, .array ?_⟩
    cases typed : table.placeType allowArray name false with
    | error fault => simp [expr, place, typed] at found
    | ok type =>
        simp only [expr, place, typed, value_bind, value_record,
          Option.some.injEq] at found
        subst found
        exact ((represents.placeType_array_iff allowArray name base).mp typed).2
  · rintro ⟨allowed, passes⟩
    cases passes with
    | array declared =>
        have typed := (represents.placeType_array_iff allowArray _ base).mpr
          ⟨allowed, declared⟩
        exact ⟨by simp [expr, place, typed], by simp [expr, place, typed]⟩

mutual

theorem place_accepts_iff (represents : table.Represents environment)
    (allowArray : Bool) :
    ∀ (held : Place) (base : BaseType),
      (place table allowArray held).Accepts (.scalar base) ↔
        held.HasType environment base
  | .var node name, base => by
      constructor
      · rintro ⟨clean, found⟩
        cases typed : table.placeType allowArray name false with
        | error fault => simp [place, typed] at clean
        | ok type =>
            simp only [place, typed, value_record, Option.some.injEq] at found
            subst found
            exact .var
              ((represents.placeType_scalar_iff allowArray name base).mp typed)
      · rintro ⟨declared⟩
        have typed :=
          (represents.placeType_scalar_iff allowArray name base).mpr declared
        exact ⟨by simp [place, typed], by simp [place, typed]⟩
  | .element node name index, base => by
      have indexIff := expr_accepts_iff represents false index .int
      rw [expr_accepts_iff_compare false index (.indexOf name)
        index.node.position] at indexIff
      constructor
      · rintro ⟨clean, found⟩
        cases typed : table.placeType allowArray name true with
        | error fault => simp [place, typed] at clean
        | ok type =>
            simp only [place, typed, value_bind, value_record,
              Option.some.injEq] at found
            subst found
            simp only [place, typed, errors_bind,
              List.append_eq_nil_iff] at clean
            obtain ⟨_, same, declared⟩ :=
              (represents.placeType_element_iff allowArray name
                (.scalar base)).mp typed
            injection same with same
            subst same
            exact .element declared (indexIff.mp ⟨clean.1, clean.2.1⟩)
      · intro typing
        cases typing with
        | element declared indexTyped =>
            have typed :=
              (represents.placeType_element_iff allowArray name
                (.scalar base)).mpr
              ⟨base, rfl, declared⟩
            obtain ⟨indexClean, indexAgrees⟩ := indexIff.mpr indexTyped
            constructor
            · simp only [place, typed, errors_bind, List.append_eq_nil_iff,
                errors_record, and_true]
              exact ⟨indexClean, indexAgrees⟩
            · simp [place, typed]

theorem expr_accepts_iff (represents : table.Represents environment)
    (allowArray : Bool) :
    ∀ (e : Expr) (base : BaseType),
      (expr table allowArray e).Accepts (.scalar base) ↔
        e.HasType environment base
  | .int node value, base => by
      simp only [Accepts, expr, errors_record, value_record, ValueType.int,
        Option.some.injEq, ValueType.scalar.injEq, true_and]
      constructor
      · rintro rfl
        exact .int
      · intro typing
        cases typing
        rfl
  | .float node value, base => by
      simp only [Accepts, expr, errors_record, value_record, ValueType.float,
        Option.some.injEq, ValueType.scalar.injEq, true_and]
      constructor
      · rintro rfl
        exact .float
      · intro typing
        cases typing
        rfl
  | .valueOf node held, base => by
      have heldIff := place_accepts_iff represents allowArray held base
      simp only [Accepts] at heldIff
      simp only [Accepts, expr, errors_bind, errors_record, value_bind,
        value_record, List.append_nil]
      rw [heldIff]
      exact ⟨.valueOf, fun | .valueOf heldTyped => heldTyped⟩
  | .binary node op left right, base => by
      have leftIff := expr_accepts_iff represents false left base
      have rightIff := expr_accepts_iff represents false right base
      simp only [Accepts] at leftIff rightIff
      simp only [Accepts, expr, errors_bind, errors_record, value_bind,
        value_record, List.append_nil, List.append_eq_nil_iff,
        commonType_eq_some_iff,
        errors_compare_eq_nil_iff]
      constructor
      · rintro ⟨⟨leftClean, rightClean, _⟩, leftFound, rightFound⟩
        exact .binary (leftIff.mp ⟨leftClean, leftFound⟩)
          (rightIff.mp ⟨rightClean, rightFound⟩)
      · intro typing
        cases typing with
        | binary leftTyped rightTyped =>
            obtain ⟨leftClean, leftFound⟩ := leftIff.mpr leftTyped
            obtain ⟨rightClean, rightFound⟩ := rightIff.mpr rightTyped
            refine ⟨⟨leftClean, rightClean, ?_⟩, leftFound, rightFound⟩
            intro expected found expectedEq foundEq
            rw [leftFound] at expectedEq
            rw [rightFound] at foundEq
            exact (Option.some.inj expectedEq).symm.trans
              (Option.some.inj foundEq)
  | .signed node op operand, base => by
      have operandIff := expr_accepts_iff represents false operand base
      simp only [Accepts] at operandIff
      simp only [Accepts, expr, errors_bind, errors_record, value_bind,
        value_record, List.append_nil]
      rw [operandIff]
      exact ⟨.signed, fun | .signed operandTyped => operandTyped⟩
  | .call node callee args, base => by
      simp only [Accepts, expr_call_eq, errors_bind, errors_record, value_bind,
        value_record, List.append_nil]
      constructor
      · rintro ⟨clean, found⟩
        cases known : table.callParams callee args.length with
        | error fault => simp [call, known] at clean
        | ok params =>
            obtain ⟨calls, sameLength⟩ :=
              (represents.callParams_eq_ok_iff callee args.length
                params).mp known
            rw [ScopeTable.callType_of_callParams known] at found
            cases found
            simp only [call, known] at clean
            exact .call calls
              ((arguments_errors_eq_nil_iff represents args params sameLength
                callee 1).mp clean)
      · intro typing
        cases typing with
        | @call _ _ _ params calls argsTyped =>
            have sameLength : params.length = args.length :=
              argsTyped.length_eq.symm
            have known :=
              (represents.callParams_eq_ok_iff callee args.length params).mpr
              ⟨calls, sameLength⟩
            simp only [call, known]
            refine ⟨?_, ScopeTable.callType_of_callParams known⟩
            exact (arguments_errors_eq_nil_iff represents args params sameLength
              callee 1).mpr argsTyped
  | .cast node target operand, base => by
      simp only [Accepts, expr, errors_bind, errors_record, value_bind,
        value_record, List.append_nil, Option.some.injEq,
        ValueType.scalar.injEq]
      constructor
      · rintro ⟨clean, rfl⟩
        obtain ⟨type, found⟩ := expr_value_of_errors operand clean
        cases type with
        | scalar operandBase =>
            exact .cast
              ((expr_accepts_iff represents false operand operandBase).mp
              ⟨clean, found⟩)
        | array operandBase =>
            obtain ⟨disallowed, _⟩ := expr_value_eq_array operand found
            simp at disallowed
      · intro typing
        cases typing with
        | @cast _ _ operandBase _ operandTyped =>
            have accepted :=
              (expr_accepts_iff represents false operand operandBase).mpr
              operandTyped
            exact ⟨accepted.1, rfl⟩

theorem arguments_errors_eq_nil_iff
    (represents : table.Represents environment) :
    ∀ (args : List Expr) (params : List ValueType), params.length =
      args.length → ∀ (callee : String) (number : Nat),
        (arguments table callee number params args).errors = [] ↔
          List.Forall₂ (Expr.PassesAs environment) args params
  | [], params, sameLength, callee, number => by
      have paramsEq : params = [] :=
        List.eq_nil_of_length_eq_zero (by simpa using sameLength)
      subst paramsEq
      simp [arguments]
  | arg :: args, [], sameLength, callee, number => by simp at sameLength
  | arg :: args, param :: params, sameLength, callee, number => by
      have argsIff := arguments_errors_eq_nil_iff represents args params
        (by simpa using sameLength) callee (number + 1)
      have argIff : (expr table param.isArray arg).Accepts param ↔
          arg.PassesAs environment param := by
        cases param with
        | scalar base =>
            rw [expr_accepts_iff represents _ arg base]
            exact ⟨.scalar, fun | .scalar argTyped => argTyped⟩
        | array base =>
            rw [expr_accepts_array_iff represents]
            simp [ValueType.isArray]
      rw [expr_accepts_iff_compare param.isArray arg (.argument number callee)
        arg.node.position] at argIff
      simp only [arguments, errors_bind, List.append_eq_nil_iff,
        List.forall₂_cons]
      rw [← and_assoc, argIff, argsIff]

end

end Expressions

section Statements

variable {environment : Environment}

/-- What is found where an array is not allowed is a scalar of some base
type. -/
theorem expr_errors_eq_nil_iff {table : ScopeTable}
    (represents : table.Represents environment) (e : Expr) :
    (expr table false e).errors = [] ↔ ∃ base, e.HasType environment base := by
  constructor
  · intro clean
    obtain ⟨type, found⟩ := expr_value_of_errors e clean
    cases type with
    | scalar base =>
        exact ⟨base,
          (expr_accepts_iff represents false e base).mp ⟨clean, found⟩⟩
    | array base =>
        obtain ⟨disallowed, _⟩ := expr_value_eq_array e found
        simp at disallowed
  · rintro ⟨base, typing⟩
    exact ((expr_accepts_iff represents false e base).mpr typing).1

theorem place_errors_eq_nil_iff {table : ScopeTable}
    (represents : table.Represents environment) (held : Place) :
    (place table false held).errors = [] ↔
      ∃ base, held.HasType environment base := by
  have viaExpr := expr_errors_eq_nil_iff represents (.valueOf default held)
  simp only [expr, errors_bind, errors_record, List.append_nil] at viaExpr
  rw [viaExpr]
  constructor
  · rintro ⟨base, typing⟩
    cases typing with
    | valueOf heldTyped => exact ⟨base, heldTyped⟩
  · rintro ⟨base, heldTyped⟩
    exact ⟨base, .valueOf heldTyped⟩

/-- Two operands whose types were compared are accepted exactly if they share
one. -/
theorem operands_errors_iff {table : ScopeTable}
    (represents : table.Represents environment) (left right : Expr)
    (context : TypeContext) (position : Position) :
    ((expr table false left).errors = [] ∧
      (expr table false right).errors = [] ∧
        (compare context position (expr table false left).value
          (expr table false right).value).errors = []) ↔
      ∃ base, left.HasType environment base ∧
        right.HasType environment base := by
  constructor
  · rintro ⟨leftClean, rightClean, agree⟩
    obtain ⟨base, leftTyped⟩ :=
      (expr_errors_eq_nil_iff represents left).mp leftClean
    have leftFound :=
      ((expr_accepts_iff represents false left base).mpr leftTyped).2
    rw [leftFound] at agree
    have rightAccepted :=
      (expr_accepts_iff_compare false right context position _).mpr
      ⟨rightClean, agree⟩
    exact ⟨base, leftTyped,
      (expr_accepts_iff represents false right base).mp rightAccepted⟩
  · rintro ⟨base, leftTyped, rightTyped⟩
    obtain ⟨leftClean, leftFound⟩ :=
      (expr_accepts_iff represents false left base).mpr leftTyped
    have rightAccepted :=
      (expr_accepts_iff represents false right base).mpr rightTyped
    rw [leftFound]
    exact ⟨leftClean,
      (expr_accepts_iff_compare false right context position _).mp
        rightAccepted⟩

theorem call_errors_eq_nil_iff {table : ScopeTable}
    (represents : table.Represents environment) (position : Position)
    (callee : String)
    (args : List Expr) :
    (call table position callee args).errors = [] ↔
      ∃ params, environment.Calls callee params ∧
        List.Forall₂ (Expr.PassesAs environment) args params := by
  have viaExpr :=
    expr_accepts_iff represents false (.call ⟨0, position⟩ callee args) .int
  constructor
  · intro clean
    cases known : table.callParams callee args.length with
    | error fault => simp [call, known] at clean
    | ok params =>
        have accepted :
            (expr table false (.call ⟨0, position⟩ callee args)).Accepts
              (.scalar .int) := by
          constructor
          · simpa [expr_call_eq] using clean
          · rw [expr_call_eq]
            exact ScopeTable.callType_of_callParams known
        cases viaExpr.mp accepted with
        | call calls argsTyped => exact ⟨_, calls, argsTyped⟩
  · rintro ⟨params, calls, argsTyped⟩
    have accepted := viaExpr.mpr (.call calls argsTyped)
    simpa [expr_call_eq] using accepted.1

theorem condition_errors_eq_nil_iff {table : ScopeTable}
    (represents : table.Represents environment) (test : Condition) :
    (condition table test).errors = [] ↔ test.WellTyped environment := by
  induction test with
  | rel position op left right =>
      simp only [condition, errors_bind, List.append_eq_nil_iff]
      rw [operands_errors_iff represents left right]
      constructor
      · rintro ⟨base, leftTyped, rightTyped⟩
        exact .rel leftTyped rightTyped
      · intro typing
        cases typing with
        | rel leftTyped rightTyped => exact ⟨_, leftTyped, rightTyped⟩
  | logic position op left right leftIH rightIH =>
      simp only [condition, errors_bind, List.append_eq_nil_iff, leftIH,
        rightIH]
      constructor
      · rintro ⟨leftTyped, rightTyped⟩
        exact .logic leftTyped rightTyped
      · intro typing
        cases typing with
        | logic leftTyped rightTyped => exact ⟨leftTyped, rightTyped⟩
  | not position operand ih =>
      simp only [condition, ih]
      exact ⟨.not, fun | .not operandTyped => operandTyped⟩

theorem represents_enterLoop {table : ScopeTable}
    (wellFormed : table.WellFormed) (represents : table.Represents environment)
    (position : Position) :
    (table.enterLoop position).Represents environment where
  var_iff name type := by
    rw [ScopeTable.resolve?_enterLoop wellFormed]
    exact represents.var_iff name type
  calls_iff name params := by
    rw [ScopeTable.resolve?_enterLoop wellFormed]
    exact represents.calls_iff name params

mutual

theorem stmt_errors_eq_nil_iff :
    ∀ (s : Stmt) {table : ScopeTable} {inLoop : Bool},
    table.WellFormed → table.Represents environment → table.inLoop = inLoop →
      ((stmt table s).errors = [] ↔ s.WellTyped environment inLoop)
  | .assign position target value, table, _, _, represents, _ => by
      have operandsIff :=
        operands_errors_iff represents (.valueOf default target) value
        .assignment position
      simp only [expr, errors_bind, errors_record, value_bind, value_record,
        List.append_nil] at operandsIff
      simp only [stmt, errors_bind, List.append_eq_nil_iff]
      rw [operandsIff]
      constructor
      · rintro ⟨base, targetTyped, valueTyped⟩
        cases targetTyped with
        | valueOf targetTyped => exact .assign targetTyped valueTyped
      · intro typing
        cases typing with
        | assign targetTyped valueTyped =>
            exact ⟨_, .valueOf targetTyped, valueTyped⟩
  | .ifThen position test thenBranch, table, inLoop, wellFormed, represents,
      loops => by
      simp only [stmt, errors_bind, List.append_eq_nil_iff]
      rw [condition_errors_eq_nil_iff represents,
        stmt_errors_eq_nil_iff thenBranch wellFormed represents loops]
      constructor
      · rintro ⟨testTyped, thenTyped⟩
        exact .ifThen testTyped thenTyped
      · intro typing
        cases typing with
        | ifThen testTyped thenTyped => exact ⟨testTyped, thenTyped⟩
  | .ifElse position test thenBranch elseBranch, table, inLoop, wellFormed,
      represents, loops => by
      simp only [stmt, errors_bind, List.append_eq_nil_iff]
      rw [condition_errors_eq_nil_iff represents,
        stmt_errors_eq_nil_iff thenBranch wellFormed represents loops,
        stmt_errors_eq_nil_iff elseBranch wellFormed represents loops]
      constructor
      · rintro ⟨testTyped, thenTyped, elseTyped⟩
        exact .ifElse testTyped thenTyped elseTyped
      · intro typing
        cases typing with
        | ifElse testTyped thenTyped elseTyped =>
            exact ⟨testTyped, thenTyped, elseTyped⟩
  | .whileDo position test body, table, inLoop, wellFormed, represents, _ => by
      simp only [stmt, errors_bind, List.append_eq_nil_iff]
      -- Inside the body the loop is open whatever was open around it.
      rw [condition_errors_eq_nil_iff represents,
        stmt_errors_eq_nil_iff body (wellFormed.enterLoop position)
          (represents_enterLoop wellFormed represents position)
          (ScopeTable.inLoop_enterLoop wellFormed position)]
      constructor
      · rintro ⟨testTyped, bodyTyped⟩
        exact .whileDo testTyped bodyTyped
      · intro typing
        cases typing with
        | whileDo testTyped bodyTyped => exact ⟨testTyped, bodyTyped⟩
  | .block position statements, table, inLoop, wellFormed, represents,
      loops => by
      simp only [stmt]
      rw [stmts_errors_eq_nil_iff statements wellFormed represents loops]
      exact ⟨.block, fun | .block allTyped => allTyped⟩
  | .breakLoop position, table, inLoop, _, _, loops => by
      subst loops
      constructor
      · intro clean
        cases isInLoop : table.inLoop with
        | false => simp [stmt, isInLoop] at clean
        | true => exact .breakLoop
      · intro typing
        cases isInLoop : table.inLoop with
        | false =>
            rw [isInLoop] at typing
            cases typing
        | true => simp [stmt, isInLoop]
  | .skip position, _, _, _, _, _ => ⟨fun _ => .skip, fun _ => rfl⟩
  | .returnValue position value, table, inLoop, _, represents, _ => by
      simp only [stmt, errors_bind, List.append_eq_nil_iff]
      rw [← expr_accepts_iff_compare, ValueType.int,
        expr_accepts_iff represents]
      exact ⟨.returnValue, fun | .returnValue valueTyped => valueTyped⟩
  | .read position target, table, inLoop, _, represents, _ => by
      simp only [stmt, errors_bind, errors_pure, List.append_nil]
      rw [place_errors_eq_nil_iff represents]
      constructor
      · rintro ⟨base, targetTyped⟩
        exact .read targetTyped
      · intro typing
        cases typing with
        | read targetTyped => exact ⟨_, targetTyped⟩
  | .write position value, table, inLoop, _, represents, _ => by
      simp only [stmt, errors_bind, errors_pure, List.append_nil]
      rw [expr_errors_eq_nil_iff represents]
      constructor
      · rintro ⟨base, valueTyped⟩
        exact .write valueTyped
      · intro typing
        cases typing with
        | write valueTyped => exact ⟨_, valueTyped⟩
  | .print position text, _, _, _, _, _ => ⟨fun _ => .print, fun _ => rfl⟩
  | .call position callee args, table, inLoop, _, represents, _ => by
      simp only [stmt]
      rw [call_errors_eq_nil_iff represents]
      constructor
      · rintro ⟨params, calls, argsTyped⟩
        exact .call calls argsTyped
      · intro typing
        cases typing with
        | call calls argsTyped => exact ⟨_, calls, argsTyped⟩

theorem stmts_errors_eq_nil_iff :
    ∀ (statements : List Stmt) {table : ScopeTable}
    {inLoop : Bool}, table.WellFormed → table.Represents environment →
      table.inLoop = inLoop → ((stmts table statements).errors = [] ↔
        ∀ statement ∈ statements, statement.WellTyped environment inLoop)
  | [], _, _, _, _, _ => by simp [stmts]
  | first :: others, table, inLoop, wellFormed, represents, loops => by
      simp only [stmts, errors_bind, List.append_eq_nil_iff,
        List.forall_mem_cons]
      rw [stmt_errors_eq_nil_iff first wellFormed represents loops,
        stmts_errors_eq_nil_iff others wellFormed represents loops]

end

end Statements

end Checked

end PL0
