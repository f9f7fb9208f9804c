import PL0.Proofs.Grammar.Programs
import PL0.Proofs.Reading.Functions

/-!
# Functions are read independently of what comes before

However broken the functions before it may be, each `fun` is read as if the
program began there.  The tokens before it are seen together with that `fun`
alone, which hides all that follows, so what is read from them depends on
nothing behind it.  What follows is read as on its own, with larger numbers
and with the earlier errors before its own.
-/

namespace PL0

open Grammar

namespace Setting

/-- The setting of a piece that comes after others. -/
def after (shift : Nat) (earlier : List SyntaxError)
    (quiet : ∀ error ∈ earlier, error.isAtEnd = false) (stop : Position) :
    Setting :=
  { toDisplacement := .renumber shift, behind := [], stop, earlier, quiet }

theorem map_displace_renumber (shift : Nat) (tokens : List Token) :
    tokens.map (Token.displace (.renumber shift)) = tokens :=
  List.map_id tokens

theorem map_error_displace_renumber (shift : Nat) (errors : List SyntaxError) :
    errors.map (SyntaxError.displace (.renumber shift)) = errors :=
  List.map_id errors

theorem recovery_before (behind : List Token) (stop : Position)
    (state : Recovery) :
    (before behind stop).recovery state =
      ⟨⟨state.cursor.tokens ++ behind, stop, state.cursor.nextId⟩, state.errors,
        state.recovering⟩ := by
  simp only [recovery, cursor, before, map_displace_renumber,
    map_error_displace_renumber]
  rfl

theorem recovery_after {shift : Nat} {earlier : List SyntaxError}
    (quiet : ∀ error ∈ earlier, error.isAtEnd = false) (stop : Position)
    (state : Recovery) :
    (after shift earlier quiet stop).recovery state =
      ⟨⟨state.cursor.tokens, stop, state.cursor.nextId + shift⟩,
        earlier ++ state.errors, state.recovering⟩ := by
  simp only [recovery, cursor, after, map_displace_renumber,
    map_error_displace_renumber, List.append_nil]
  rfl

end Setting

namespace Recoverer

variable {state : Recovery}

theorem round_recovered
    (head : state.cursor.kinds.head? = some (.keyword .funWord)) :
    round state.recovered = round state := by
  have sameHead : state.recovered.cursor.kinds.head? =
      some (.keyword .funWord) := head
  unfold round
  rw [bind_apply_of_eq (next?_apply _), bind_apply_of_eq (next?_apply _)]
  simp only [head, sameHead]
  rfl

theorem round_of_read {function : Function} {rest : Recovery}
    (head : state.cursor.kinds.head? = some (.keyword .funWord))
    (read : Attempt.function state.recovered = .ok function rest) :
    round state = (some function, rest) := by
  have attempted : attempt Attempt.function state.recovered = (.ok function,
      rest) := by
    rw [attempt, read]
  unfold round
  rw [bind_apply_of_eq (next?_apply _), head]
  simp only
  rw [bind_apply_of_eq (recovered_apply _), bind_apply_of_eq attempted]
  rfl

/-- A `fun` is read afresh. -/
theorem functionsWithin_recovered
    (head : state.cursor.kinds.head? = some (.keyword .funWord))
    (limit : Nat) :
    functionsWithin (limit + 1) state.recovered =
      functionsWithin (limit + 1) state := by
  have sameHead : state.recovered.cursor.kinds.head? =
      some (.keyword .funWord) := head
  cases ran : round state with
  | mk first rest =>
      have afresh : round state.recovered = (first, rest) := by
        rw [round_recovered head, ran]
      rw [functionsWithin_of_round head ran rfl,
        functionsWithin_of_round sameHead afresh rfl]

/-- Tokens before a `fun` that are passed without another one. -/
theorem exists_front {guard : Token} {front passed tokens : List Token}
    (equal : front ++ [guard] = passed ++ tokens) (outside : guard ∉ passed) :
    ∃ others, tokens = others ++ [guard] ∧ others.length ≤ front.length := by
  rcases List.append_eq_append_iff.mp equal with
    ⟨more, passedEq, guardEq⟩ | ⟨others, frontEq, tokensEq⟩
  · cases more with
    | nil => exact ⟨[], guardEq.symm, Nat.zero_le _⟩
    | cons token more =>
        obtain rfl : guard = token := (List.cons.inj guardEq).1
        exact absurd (by simp [passedEq]) outside
  · refine ⟨others, tokensEq, ?_⟩
    rw [frontEq, List.length_append]
    omega

/-- Up to the next function of the rest, what is read does not depend on what
comes behind. -/
theorem exists_functions_before {guard : Token}
    (isFun : guard.kind = .keyword .funWord) {front : List Token}
    (start : Recovery) (tokensEq : start.cursor.tokens = front ++ [guard])
    (quiet : ∀ error ∈ start.errors, error.isAtEnd = false) :
    ∃ functions reached, reached.cursor.tokens = [guard] ∧
      (∀ error ∈ reached.errors, error.isAtEnd = false) ∧
      ∀ behind stop limit, front.length + 1 + behind.length ≤ limit →
        functionsWithin limit ((Setting.before behind stop).recovery start) =
          (functions ++
              (functionsWithin limit
                ((Setting.before behind stop).recovery reached)).1,
            (functionsWithin limit
              ((Setting.before behind stop).recovery reached)).2) := by
  induction lengthEq : front.length
    using Nat.strongRecOn generalizing front start with
  | _ length ih =>
      cases front with
      | nil => exact ⟨[], start, tokensEq, quiet, fun _ _ _ _ => rfl⟩
      | cons token front =>
          have head : start.cursor.kinds.head? = some token.kind := by
            rw [Cursor.kinds, tokensEq]
            rfl
          have advanceEq : start.cursor.advance.tokens = front ++ [guard] := by
            rw [Cursor.advance, tokensEq]
            rfl
          have hidden : .keyword .funWord ∈ start.cursor.advance.kinds := by
            rw [Cursor.kinds, advanceEq]
            simp [isFun]
          cases ran : round start with
          | mk first rest =>
          have continues := round_continues head ran
          obtain ⟨passed, passedEq, _, plain⟩ := continues.cursor.tokens
          have outside : guard ∉ passed :=
            fun member => plain guard member isFun
          obtain ⟨others, restEq, shorter⟩ :=
            exists_front (advanceEq.symm.trans passedEq) outside
          obtain ⟨reported, errorsEq, none⟩ := continues.errors
          have more : rest.cursor.kinds ≠ [] := by simp [Cursor.kinds, restEq]
          have restQuiet : ∀ error ∈ rest.errors, error.isAtEnd = false := by
            intro error member
            rw [errorsEq] at member
            rcases List.mem_append.mp member with old | new
            · exact quiet error old
            · exact none more error new
          rw [List.length_cons] at lengthEq
          obtain ⟨functions, reached, reachedEq, reachedQuiet, further⟩ :=
            ih others.length (by omega) rest restEq restQuiet rfl
          refine ⟨(first.map (Function.displace (.renumber 0))).toList ++
            functions, reached, reachedEq, reachedQuiet, ?_⟩
          intro behind stop limit enough
          obtain ⟨limit, rfl⟩ : ∃ fewer, limit = fewer + 1 :=
            ⟨limit - 1, by omega⟩
          have fits : (Setting.before behind stop).Fits start.cursor.advance :=
            .inl hidden
          have shownHead :
              ((Setting.before behind stop).recovery start).cursor.kinds.head? =
              some token.kind := by
            rw [← head, ← fits.of_advance.head?]
            rfl
          obtain ⟨value, last, valueRan, shownRan, _⟩ :=
            Setting.round_repeats fits head
          rw [ran] at valueRan
          cases valueRan
          have reachedLength :
              ((Setting.before behind stop).recovery
                reached).cursor.tokens.length = 1 + behind.length := by
            simp [Setting.recovery_before, reachedEq, Nat.add_comm]
          have same :
              functionsWithin limit
                ((Setting.before behind stop).recovery reached) =
              functionsWithin (limit + 1)
                ((Setting.before behind stop).recovery reached) :=
            functionsWithin_eq_of_le (by omega) (by omega)
          rw [functionsWithin_of_round shownHead shownRan
            (further behind stop limit (by omega)), same, List.append_assoc]
          rfl

end Recoverer

theorem inputKinds_append {first second : List Token}
    (unended : ∀ token ∈ first, token.kind ≠ .endOfInput) :
    inputKinds (first ++ second) = first.map Token.kind ++
      inputKinds second := by
  rw [inputKinds, List.takeWhile_append_of_pos (by simpa using unended),
    List.map_append]
  rfl

theorem Cursor.tokens_ofTokens_append {first second : List Token}
    (unended : ∀ token ∈ first, token.kind ≠ .endOfInput) :
    (Cursor.ofTokens (first ++ second)).tokens =
      first ++ (Cursor.ofTokens second).tokens :=
  List.takeWhile_append_of_pos (by simpa using unended)

theorem Cursor.stop_ofTokens_append {first second : List Token}
    (unended : ∀ token ∈ first, token.kind ≠ .endOfInput) (more : second ≠ []) :
    (Cursor.ofTokens (first ++ second)).stop =
      (Cursor.ofTokens second).stop := by
  have noEnd : first.find? (fun token => token.kind = .endOfInput) = none := by
    simpa using unended
  have endEq : (first ++ second).find? (fun token => token.kind = .endOfInput) =
      second.find? (fun token => token.kind = .endOfInput) := by
    rw [List.find?_append, noEnd, Option.none_or]
  have lastEq : (first ++ second).getLast? = second.getLast? :=
    List.getLast?_append_of_ne_nil first more
  simp only [Cursor.ofTokens, endEq, lastEq]

/-- The state in which a program is read, with what is known from before. -/
def Recovery.resume (tokens : List Token) (nextId : NodeId)
    (errors : List SyntaxError) (recovering : Bool) : Recovery :=
  ⟨⟨(Cursor.ofTokens tokens).tokens, (Cursor.ofTokens tokens).stop, nextId⟩,
    errors, recovering⟩

/-- Only functions are read where the first token is a `fun`. -/
theorem readProgram_of_fun {tokens : List Token} {limit : Nat}
    (head : (inputKinds tokens).head? = some (.keyword .funWord))
    (enough : (inputKinds tokens).length ≤ limit) :
    readProgram tokens =
      ⟨.functions
        (Recoverer.functionsWithin limit (.resume tokens 0 [] false)).1,
        (Recoverer.functionsWithin limit
          (.resume tokens 0 [] false)).2.errors⟩ := by
  have lengthEq : (inputKinds tokens).length =
      (Recovery.resume tokens 0 [] false).cursor.tokens.length := by
    rw [inputKinds, List.length_map]
    rfl
  have startHead : (Recovery.resume tokens 0 [] false).cursor.kinds.head? =
      some (.keyword .funWord) := head
  have run : Recoverer.program (.resume tokens 0 [] false) =
      (.functions
        (Recoverer.functionsWithin limit (.resume tokens 0 [] false)).1,
        (Recoverer.functionsWithin limit (.resume tokens 0 [] false)).2) := by
    unfold Recoverer.program
    rw [Recoverer.bind_apply_of_eq (Recoverer.next?_apply _), startHead]
    simp only
    rw [Recoverer.bind_apply_of_eq (Recoverer.remaining_apply _),
      Cursor.length_kinds,
      Recoverer.bind_apply_of_eq
        (Recoverer.functionsWithin_eq_of_le (Nat.le_refl _)
        (lengthEq ▸ enough))]
    rfl
  change Reading.mk (Recoverer.program (.resume tokens 0 [] false)).1
    (Recoverer.program (.resume tokens 0 [] false)).2.errors = _
  rw [run]

/-- A program is read from any state as on its own, with larger numbers and
after the earlier errors. -/
theorem functionsWithin_resume {tokens : List Token} {limit : Nat}
    {functions : List Function}
    (head : (inputKinds tokens).head? = some (.keyword .funWord))
    (enough : (inputKinds tokens).length ≤ limit)
    (read : (readProgram tokens).program = .functions functions)
    (nextId : NodeId)
    {errors : List SyntaxError}
    (quiet : ∀ error ∈ errors, error.isAtEnd = false)
    (recovering : Bool) :
    (Recoverer.functionsWithin limit
      (.resume tokens nextId errors recovering)).1 =
        functions.map (Function.displace (.renumber nextId)) ∧
      (Recoverer.functionsWithin limit
        (.resume tokens nextId errors recovering)).2.errors =
        errors ++ (readProgram tokens).errors := by
  have positive : 0 < (inputKinds tokens).length := by
    rw [List.length_pos_iff]
    intro none
    simp [none] at head
  obtain ⟨fewer, rfl⟩ : ∃ fewer, limit = fewer + 1 := ⟨limit - 1, by omega⟩
  have startHead : (Recovery.resume tokens 0 [] recovering).cursor.kinds.head? =
      some (.keyword .funWord) := head
  have afresh :
      Recoverer.functionsWithin (fewer + 1) (.resume tokens 0 [] false) =
      Recoverer.functionsWithin (fewer + 1) (.resume tokens 0 [] recovering) :=
    Recoverer.functionsWithin_recovered startHead fewer
  have shownEq :
      (Setting.after nextId errors quiet (Cursor.ofTokens tokens).stop).recovery
        (.resume tokens 0 [] recovering) =
          .resume tokens nextId errors recovering := by
    simp [Setting.recovery_after, Recovery.resume]
  have ends :
      (Setting.after nextId errors quiet (Cursor.ofTokens tokens).stop).Ends
        (Recovery.resume tokens 0 [] recovering).cursor := ⟨rfl, rfl⟩
  obtain ⟨value, rest, ran, shownRan, _⟩ :=
    Setting.functionsWithin_repeats ends (fewer + 1)
  rw [shownEq] at shownRan
  rw [readProgram_of_fun head enough, afresh, ran] at read ⊢
  cases read
  rw [shownRan]
  refine ⟨rfl, ?_⟩
  change errors ++ rest.errors.map (SyntaxError.displace (.renumber nextId)) = _
  rw [Setting.map_error_displace_renumber]

/-- A function of the grammar is read wherever it stands, and no error is
added. -/
theorem functionsWithin_definition {definition third : List Token}
    {tree : Function} (unended : ∀ token ∈ definition, token.kind ≠ .endOfInput)
    (derived : Definition (definition.map Token.kind) tree) {limit : Nat}
    (enough : (inputKinds (definition ++ third)).length ≤ limit)
    (nextId : NodeId)
    (errors : List SyntaxError) (recovering : Bool) :
    ∃ function rest, function.erase = tree ∧ rest.errors = errors ∧
      rest.cursor.tokens = (Cursor.ofTokens third).tokens ∧
      rest.cursor.stop = (Cursor.ofTokens (definition ++ third)).stop ∧
      Recoverer.functionsWithin limit
        (.resume (definition ++ third) nextId errors recovering) =
        (function :: (Recoverer.functionsWithin limit rest).1,
          (Recoverer.functionsWithin limit rest).2) := by
  have tokensEq : (Cursor.ofTokens (definition ++ third)).tokens =
      definition ++ (Cursor.ofTokens third).tokens :=
    Cursor.tokens_ofTokens_append unended
  have kindsEq : inputKinds (definition ++ third) =
      definition.map Token.kind ++ inputKinds third := inputKinds_append unended
  obtain ⟨kind, others, wordEq, isFun⟩ := definition_starts _ tree derived
  obtain rfl : kind = .keyword .funWord := by simpa [startsDefinition]
    using isFun
  obtain ⟨token, behind, rfl⟩ :
    ∃ token behind, definition = token :: behind := by
    cases definition with
    | nil => cases wordEq
    | cons token behind => exact ⟨token, behind, rfl⟩
  have head : (Recovery.resume (token :: behind ++ third) nextId errors
      recovering).cursor.kinds.head? = some (.keyword .funWord) := by
    change (inputKinds (token :: behind ++ third)).head? = _
    rw [kindsEq, wordEq]
    rfl
  have stands : (Recovery.resume (token :: behind ++ third) nextId errors
      recovering).recovered.Stands ((token :: behind).map Token.kind ++
        inputKinds third)
      errors := ⟨kindsEq, rfl⟩
  obtain ⟨function, rest, read, erased, restStands⟩ :=
    Attempt.function_gives derived stands
  have ran := Recoverer.round_of_read head read
  have continues := Recoverer.round_continues head ran
  obtain ⟨passed, passedEq, _, _⟩ := continues.cursor.tokens
  have restTokens : rest.cursor.tokens = (Cursor.ofTokens third).tokens := by
    have advanceEq : (Recovery.resume (token :: behind ++ third) nextId errors
        recovering).cursor.advance.tokens =
          behind ++ (Cursor.ofTokens third).tokens :=
      congrArg List.tail tokensEq
    have sameLength :
        rest.cursor.tokens.length = (Cursor.ofTokens third).tokens.length := by
      rw [← Cursor.length_kinds, restStands.kinds, inputKinds, List.length_map]
      rfl
    exact List.append_inj_right' (passedEq.symm.trans advanceEq) sameLength
  refine ⟨function, rest, erased, restStands.errors, restTokens,
    continues.cursor.stop, ?_⟩
  rw [kindsEq, List.length_append, List.length_map, List.length_cons] at enough
  obtain ⟨fewer, rfl⟩ : ∃ fewer, limit = fewer + 1 := ⟨limit - 1, by omega⟩
  have same : Recoverer.functionsWithin fewer rest =
      Recoverer.functionsWithin (fewer + 1) rest := by
    have restLength :
        rest.cursor.tokens.length = (inputKinds third).length := by
      rw [restTokens, inputKinds, List.length_map]
      rfl
    exact Recoverer.functionsWithin_eq_of_le (by omega) (by omega)
  rw [Recoverer.functionsWithin_of_round head ran same]
  rfl

/-- What comes before a function at a given position determines what was read
before it. -/
theorem exists_readProgram_append {first : List Token} (position : Position)
    (unended : ∀ token ∈ first, token.kind ≠ .endOfInput)
    (begun : ∀ token ∈ first.head?, token.kind = .keyword .funWord) :
    ∃ before nextId errors recovering,
      (∀ error ∈ errors, error.isAtEnd = false) ∧
      ∀ second, second.head? = some ⟨.keyword .funWord, position⟩ → ∃ limit,
        (inputKinds second).length ≤ limit ∧
        readProgram (first ++ second) =
          ⟨.functions (before ++
              (Recoverer.functionsWithin limit
                (.resume second nextId errors recovering)).1),
            (Recoverer.functionsWithin limit
              (.resume second nextId errors recovering)).2.errors⟩ := by
  obtain ⟨before, reached, reachedTokens, reachedQuiet, further⟩ :=
    Recoverer.exists_functions_before rfl
      ⟨⟨first ++ [⟨.keyword .funWord, position⟩], position, 0⟩, [],
        false⟩ rfl (by simp)
  refine ⟨before, reached.cursor.nextId, reached.errors, reached.recovering,
    reachedQuiet, ?_⟩
  intro second head
  obtain ⟨tail, rfl⟩ : ∃ tail, second = ⟨.keyword .funWord,
    position⟩ :: tail := by
    cases second with
    | nil => cases head
    | cons token tail => exact ⟨tail, by rw [Option.some.inj head]⟩
  have laterEq :
      (Cursor.ofTokens (⟨.keyword .funWord, position⟩ :: tail)).tokens =
      ⟨.keyword .funWord, position⟩ :: (Cursor.ofTokens tail).tokens := rfl
  have startEq :
      Recovery.resume (first ++ ⟨.keyword .funWord, position⟩ :: tail) 0
        [] false =
      (Setting.before (Cursor.ofTokens tail).tokens
        (Cursor.ofTokens (⟨.keyword .funWord, position⟩ :: tail)).stop).recovery
        ⟨⟨first ++ [⟨.keyword .funWord, position⟩], position, 0⟩, [],
          false⟩ := by
    rw [Setting.recovery_before, Recovery.resume,
      Cursor.tokens_ofTokens_append unended,
      Cursor.stop_ofTokens_append unended (by simp), laterEq]
    simp
  have reachedEq : (Setting.before (Cursor.ofTokens tail).tokens
      (Cursor.ofTokens (⟨.keyword .funWord, position⟩ :: tail)).stop).recovery
        reached =
      .resume (⟨.keyword .funWord, position⟩ :: tail) reached.cursor.nextId
        reached.errors reached.recovering := by
    rw [Setting.recovery_before, Recovery.resume, reachedTokens, laterEq]
    rfl
  have kindsEq : inputKinds (first ++ ⟨.keyword .funWord, position⟩ :: tail) =
      first.map Token.kind ++
        inputKinds (⟨.keyword .funWord, position⟩ :: tail) :=
    inputKinds_append unended
  have inputHead :
      (inputKinds (first ++ ⟨.keyword .funWord, position⟩ :: tail)).head? =
      some (.keyword .funWord) := by
    rw [kindsEq]
    cases first with
    | nil => rfl
    | cons token others =>
        rw [List.map_cons, begun token rfl]
        rfl
  have secondLength :
      (inputKinds (⟨.keyword .funWord, position⟩ :: tail)).length =
      (Cursor.ofTokens tail).tokens.length + 1 := List.length_map ..
  have appendLength :
      (inputKinds (first ++ ⟨.keyword .funWord, position⟩ :: tail)).length =
      first.length + ((Cursor.ofTokens tail).tokens.length + 1) := by
    rw [kindsEq, List.length_append, List.length_map, secondLength]
  refine ⟨(inputKinds (first ++ ⟨.keyword .funWord, position⟩ :: tail)).length,
    ?_, ?_⟩
  · omega
  · rw [readProgram_of_fun inputHead (Nat.le_refl _), startEq,
      further _ _ _ (by omega), reachedEq]

/-- However broken what comes before it may be, a program that begins with a
function is read as on its own: its functions come last with larger numbers,
its errors come last, and all else that is found depends only on what comes
before and on where the function begins.  In particular a function of the
grammar is found, and no error is added for it. -/
theorem readProgram_append (first : List Token) (position : Position)
    (unended : ∀ token ∈ first, token.kind ≠ .endOfInput)
    (begun : ∀ token ∈ first.head?, token.kind = .keyword .funWord) :
    ∃ (before : List Function) (errors : List SyntaxError) (shift : Nat),
      (∀ second, second.head? = some ⟨.keyword .funWord, position⟩ →
        ∃ functions, (readProgram second).program = .functions functions ∧
          (readProgram (first ++ second)).program =
            .functions
              (before ++ functions.map (Function.displace (.renumber shift))) ∧
          (readProgram (first ++ second)).errors =
            errors ++ (readProgram second).errors) ∧
      ∀ definition tree third, definition.head? = some ⟨.keyword .funWord,
        position⟩ → (∀ token ∈ definition, token.kind ≠ .endOfInput) →
        Definition (definition.map Token.kind) tree →
        (inputKinds third = [] ∨ (inputKinds third).head? =
          some (.keyword .funWord)) →
        ∃ function after, function.erase = tree ∧
          (readProgram (first ++ definition ++ third)).program =
            .functions (before ++ function :: after) ∧
          (readProgram (first ++ definition ++ third)).errors =
            errors ++ if inputKinds third = [] then []
              else (readProgram third).errors := by
  obtain ⟨before, nextId, errors, recovering, quiet, append⟩ :=
    exists_readProgram_append position unended begun
  refine ⟨before, errors, nextId, ?_, ?_⟩
  · intro second head
    have inputHead : (inputKinds second).head? = some (.keyword .funWord) := by
      cases second with
      | nil => cases head
      | cons token tail =>
          cases head
          rfl
    obtain ⟨limit, enough, readEq⟩ := append second head
    have read := readProgram_of_fun inputHead enough
    obtain ⟨functionsEq, errorsEq⟩ :=
      functionsWithin_resume inputHead enough (by rw [read]) nextId quiet
        recovering
    rw [readEq]
    exact ⟨_, by rw [read], by rw [functionsEq], errorsEq⟩
  · intro definition tree third head definitionUnended derived thirdBegun
    have head : (definition ++ third).head? = some ⟨.keyword .funWord,
        position⟩ := by
      rw [List.head?_append, head]
      rfl
    obtain ⟨limit, enough, readEq⟩ := append (definition ++ third) head
    rw [← List.append_assoc] at readEq
    obtain ⟨function, rest, erased, restErrors, restTokens, restStop, ran⟩ :=
      functionsWithin_definition definitionUnended derived enough nextId errors
        recovering
    refine ⟨function, _, erased, by rw [readEq, ran], ?_⟩
    rw [readEq, ran]
    have restKinds : rest.cursor.kinds = inputKinds third := by
      rw [Cursor.kinds, restTokens]
      rfl
    rcases thirdBegun with ended | thirdHead
    · rw [if_pos ended, List.append_nil,
        Recoverer.functionsWithin_of_kinds_eq_nil (restKinds.trans ended)]
      exact restErrors
    · have some : inputKinds third ≠ [] := by
        intro none
        simp [none] at thirdHead
      have thirdMore : third ≠ [] := by
        rintro rfl
        exact some rfl
      rw [Cursor.stop_ofTokens_append definitionUnended thirdMore] at restStop
      have restEq :
          rest = .resume third rest.cursor.nextId errors rest.recovering := by
        rw [Recovery.resume, ← restTokens, ← restStop, ← restErrors]
      have thirdLength : (inputKinds third).length ≤ limit := by
        rw [inputKinds_append definitionUnended, List.length_append] at enough
        omega
      rw [if_neg some, restEq]
      exact (functionsWithin_resume thirdHead thirdLength
        (by rw [readProgram_of_fun thirdHead thirdLength]) _ quiet _).2

/-- A function that breaks off before its parameters. -/
def brokenHeader : List Token :=
  [⟨.keyword .funWord, ⟨1, 1⟩⟩, ⟨.identifier "f", ⟨1, 5⟩⟩,
    ⟨.symbol .openParen, ⟨1, 6⟩⟩]

/-- A whole function, on the second line. -/
def idleMain : List Token :=
  [⟨.keyword .funWord, ⟨2, 1⟩⟩, ⟨.identifier "main", ⟨2, 5⟩⟩,
    ⟨.symbol .openParen, ⟨2, 9⟩⟩, ⟨.symbol .closeParen, ⟨2, 10⟩⟩,
    ⟨.keyword .beginWord, ⟨2, 12⟩⟩,
    ⟨.keyword .skipWord, ⟨2, 18⟩⟩, ⟨.keyword .endWord, ⟨2, 23⟩⟩]

theorem idleMain_definition :
    Definition (idleMain.map Token.kind) ⟨"main", [], [], [.skip default],
      default⟩ :=
  .mk "main" .none .none (.mk (.single .skip) .absent)

theorem readProgram_append_brokenHeader :
    ∃ (before : List Function) (errors : List SyntaxError) (shift : Nat),
      (∃ functions, (readProgram idleMain).program = .functions functions ∧
        (readProgram (brokenHeader ++ idleMain)).program =
          .functions
            (before ++ functions.map (Function.displace (.renumber shift))) ∧
        (readProgram (brokenHeader ++ idleMain)).errors =
          errors ++ (readProgram idleMain).errors) ∧
      ∃ function after, function.erase = ⟨"main", [], [], [.skip default],
        default⟩ ∧
        (readProgram (brokenHeader ++ idleMain ++ idleMain)).program =
          .functions (before ++ function :: after) ∧
        (readProgram (brokenHeader ++ idleMain ++ idleMain)).errors =
          errors ++ if inputKinds idleMain = [] then []
            else (readProgram idleMain).errors := by
  obtain ⟨before, errors, shift, append, particular⟩ :=
    readProgram_append brokenHeader ⟨2, 1⟩ (by decide) (by decide)
  exact ⟨before, errors, shift, append idleMain rfl,
    particular idleMain _ idleMain rfl (by decide) idleMain_definition
      (.inr rfl)⟩

end PL0
