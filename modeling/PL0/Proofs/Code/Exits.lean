import PL0.Code.Lowering

/-!
# The exits of the loops around a statement

A `break` jumps to the exit of the innermost loop around it.  Which label that
is can be handed down to the statement, or it can be kept on a stack that is
shared by all statements: the exit of a loop is put on the stack before its
body and taken off behind it, also if no code can be made for the body.  Both
ways lead to the same code or to the same failure, and in the end the stack is
as it was in the beginning.
-/

namespace PL0

/-- A step that emits code and shares a stack of exits, innermost first.  The
stack outlasts a failure. -/
def LoopEmission (α : Type) :=
  List Label → Supply → Except InternalError (Emitted α) × List Label

namespace LoopEmission

variable {α β : Type}

instance : Monad LoopEmission where
  pure value := fun exits supply => (.ok ⟨value, [], supply⟩, exits)
  bind first next := fun exits supply =>
    match first exits supply with
    | (.error error, exits) => (.error error, exits)
    | (.ok before, exits) =>
      match next before.value exits before.supply with
      | (.error error, exits) => (.error error, exits)
      | (.ok after, exits) =>
        (.ok ⟨after.value, before.code ++ after.code, after.supply⟩, exits)

/-- Emit code without a look at the stack. -/
def lift (emission : Emission α) : LoopEmission α :=
  fun exits supply => (emission supply, exits)

/-- Emit an instruction. -/
def emit (instr : Instr) : LoopEmission Unit :=
  lift (Emission.emit instr)

/-- The exit on top of the stack, if there is one. -/
def innermost? : LoopEmission (Option Label) :=
  fun exits supply => (.ok ⟨exits.head?, [], supply⟩, exits)

/-- Put an exit on the stack for a while. -/
def inLoop (exit : Label) (body : LoopEmission α) : LoopEmission α :=
  fun exits supply =>
    let (result, exits) := body (exit :: exits) supply
    (result, exits.tail)

mutual

/-- Code for a statement. -/
def stmt (types : TypeTable) : Stmt → LoopEmission Unit
  | .ifThen _ test thenBranch => do
    let id ← lift Emission.freshLabel
    let test ← lift (Emission.condition types test)
    emit (.jumpIf test (.branch id .thenPart))
    emit (.jump (.branch id .endPart))
    emit (.label (.branch id .thenPart))
    stmt types thenBranch
    emit (.label (.branch id .endPart))
  | .ifElse _ test thenBranch elseBranch => do
    let id ← lift Emission.freshLabel
    let test ← lift (Emission.condition types test)
    emit (.jumpIf test (.branch id .thenPart))
    emit (.jump (.branch id .elsePart))
    emit (.label (.branch id .thenPart))
    stmt types thenBranch
    emit (.jump (.branch id .endPart))
    emit (.label (.branch id .elsePart))
    stmt types elseBranch
    emit (.label (.branch id .endPart))
  | .whileDo _ test body => do
    let id ← lift Emission.freshLabel
    emit (.label (.loop id .startPart))
    let test ← lift (Emission.condition types test)
    emit (.jumpIf test (.loop id .bodyPart))
    emit (.jump (.loop id .exitPart))
    emit (.label (.loop id .bodyPart))
    inLoop (.loop id .exitPart) (stmt types body)
    emit (.jump (.loop id .startPart))
    emit (.label (.loop id .exitPart))
  | .block _ statements => stmts types statements
  | .breakLoop position => do
    match ← innermost? with
    | some exit => emit (.jump exit)
    | none => lift (Emission.fail (.breakOutsideLoop position))
  -- The other statements have no loop and no `break` in them.
  | other => lift (Emission.stmt types none other)

/-- Code for statements in order. -/
def stmts (types : TypeTable) : List Stmt → LoopEmission Unit
  | [] => pure ()
  | first :: others => do
    stmt types first
    stmts types others

end

/-- Code for a function. -/
def function (types : TypeTable) (function : Function) : LoopEmission Unit := do
  emit (.enter function.name (function.params.map Declaration.name))
  lift (Emission.locals types function.locals)
  stmts types function.body
  emit (.leave function.name)

/-- Code for functions in order. -/
def functions (types : TypeTable) : List Function → LoopEmission Unit
  | [] => pure ()
  | first :: others => do
    function types first
    functions types others

/-- Code for a program. -/
def program (types : TypeTable) : Program → LoopEmission Unit
  | .functions all => functions types all
  | .statement body => do
    emit (.enter entryPoint [])
    stmt types body
    emit (.leave entryPoint)

/-- The code of a program, made with one stack for all its loops, and the stack
in the end. -/
def lower (tree : Program) (types : TypeTable) :
    Except InternalError (List Instr) × List Label :=
  let (result, exits) := program types tree [] .initial
  (result.map Emitted.code, exits)

/-- With a stack the same is emitted as without it, and the stack is left as it
was. -/
def Restores (exits : List Label) (plain : Emission α)
    (emission : LoopEmission α) : Prop :=
  ∀ supply, emission exits supply = (plain supply, exits)

variable {exits : List Label}

theorem restores_lift (emission : Emission α) :
    Restores exits emission (lift emission) :=
  fun _ => rfl

theorem restores_emit (instr : Instr) :
    Restores exits (Emission.emit instr) (emit instr) :=
  restores_lift _

theorem Restores.bind {plain : Emission α} {plainNext : α → Emission β}
    {first : LoopEmission α} {next : α → LoopEmission β}
    (restores : Restores exits plain first)
    (nextRestores : ∀ value, Restores exits (plainNext value) (next value)) :
    Restores exits (plain >>= plainNext) (first >>= next) := by
  intro supply
  simp only [Bind.bind, restores supply]
  cases plain supply with
  | error => rfl
  | ok before =>
    simp only [nextRestores before.value before.supply]
    cases plainNext before.value before.supply <;> rfl

theorem Restores.inLoop {exit : Label} {plain : Emission α}
    {body : LoopEmission α} (restores : Restores (exit :: exits) plain body) :
    Restores exits plain (inLoop exit body) := by
  intro supply
  simp only [LoopEmission.inLoop, restores supply, List.tail_cons]

theorem restores_breakLoop (types : TypeTable) (position : Position) :
    Restores exits (Emission.stmt types exits.head? (.breakLoop position))
      (stmt types (.breakLoop position)) := by
  intro supply
  cases exits <;> rfl

mutual

/-- A statement restores the stack, on whose top it finds the exit that is
otherwise handed down to it. -/
theorem stmt_restores (types : TypeTable) : ∀ (exits : List Label) (s : Stmt),
    Restores exits (Emission.stmt types exits.head? s) (stmt types s)
  | exits, .ifThen _ _ thenBranch =>
    (restores_lift _).bind fun _ => (restores_lift _).bind fun _ =>
    (restores_emit _).bind fun _ => (restores_emit _).bind fun _ =>
    (restores_emit _).bind fun _ =>
    (stmt_restores types exits thenBranch).bind fun _ => restores_emit _
  | exits, .ifElse _ _ thenBranch elseBranch =>
    (restores_lift _).bind fun _ => (restores_lift _).bind fun _ =>
    (restores_emit _).bind fun _ => (restores_emit _).bind fun _ =>
    (restores_emit _).bind fun _ =>
    (stmt_restores types exits thenBranch).bind fun _ =>
    (restores_emit _).bind fun _ => (restores_emit _).bind fun _ =>
    (stmt_restores types exits elseBranch).bind fun _ => restores_emit _
  | exits, .whileDo _ _ body =>
    (restores_lift _).bind fun id => (restores_emit _).bind fun _ =>
    (restores_lift _).bind fun _ => (restores_emit _).bind fun _ =>
    (restores_emit _).bind fun _ => (restores_emit _).bind fun _ =>
    (stmt_restores types (.loop id .exitPart :: exits) body).inLoop.bind fun _ =>
    (restores_emit _).bind fun _ => restores_emit _
  | exits, .block _ statements => stmts_restores types exits statements
  | _, .breakLoop position => restores_breakLoop types position
  | _, .assign .. | _, .skip _ | _, .returnValue .. | _, .read .. | _, .write ..
  | _, .print .. | _, .call .. => restores_lift _

theorem stmts_restores (types : TypeTable) :
    ∀ (exits : List Label) (statements : List Stmt),
      Restores exits (Emission.stmts types exits.head? statements)
        (stmts types statements)
  | _, [] => fun _ => rfl
  | exits, first :: others =>
    (stmt_restores types exits first).bind fun _ =>
      stmts_restores types exits others

end

theorem function_restores (types : TypeTable) (f : Function) :
    Restores [] (Emission.function types f) (function types f) :=
  (restores_emit _).bind fun _ => (restores_lift _).bind fun _ =>
    (stmts_restores types [] f.body).bind fun _ => restores_emit _

theorem functions_restores (types : TypeTable) : ∀ definitions : List Function,
    Restores [] (Emission.functions types definitions)
      (functions types definitions)
  | [] => fun _ => rfl
  | first :: others =>
    (function_restores types first).bind fun _ =>
      functions_restores types others

theorem program_restores (types : TypeTable) : ∀ tree : Program,
    Restores [] (Emission.program types tree) (program types tree)
  | .functions all => functions_restores types all
  | .statement body =>
    (restores_emit _).bind fun _ => (stmt_restores types [] body).bind fun _ =>
      restores_emit _

/-- The stack makes no difference to the code of a program or to why there is
none, and it is empty in the end. -/
theorem lower_eq (tree : Program) (types : TypeTable) :
    lower tree types = (PL0.lower tree types, []) := by
  simp only [lower, program_restores types tree .initial, PL0.lower]

end LoopEmission

end PL0
