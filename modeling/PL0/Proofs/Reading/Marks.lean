import PL0.Proofs.Reading.Positions

/-!
# When errors are reported

An error is about the token at which reading stopped.  As long as reading has
not recovered from an error, that token may still be the next one, and no
other error is reported there.  It has recovered only when the token has been
passed: a statement that was read has passed it, and so has a semicolon.  A
`fun` counts as recovered before it is passed, but nothing is reported until
it is.  So no token has two errors, and the errors follow the tokens.
-/

namespace PL0

/-- What can be said of a token in an error: its kind, which is none for the
end of the input, and its position. -/
abbrev Mark := Option Token.Kind × Position

def Token.mark (token : Token) : Mark :=
  (some token.kind, token.position)

def SyntaxError.mark (error : SyntaxError) : Mark :=
  (error.found, error.position)

def Cursor.mark (cursor : Cursor) : Mark :=
  (cursor.next?, cursor.position)

/-- Since the start reading has passed some tokens. -/
structure Cursor.Past (start : Cursor) (passed : List Token) (cursor : Cursor) :
    Prop where
  stop : cursor.stop = start.stop
  tokens : start.tokens = passed ++ cursor.tokens

theorem Cursor.Past.move {start cursor rest : Cursor}
    {passed further : List Token} (past : start.Past passed cursor)
    (stop : rest.stop = cursor.stop)
    (tokens : cursor.tokens = further ++ rest.tokens) :
    start.Past (passed ++ further) rest :=
  ⟨stop.trans past.stop, by rw [past.tokens, tokens, List.append_assoc]⟩

namespace Recovery

variable {start : Cursor} {state : Recovery}

/-- What the errors so far are about. -/
def marks (state : Recovery) : List Mark :=
  state.errors.map SyntaxError.mark

/-- The errors are about tokens that were passed, in their order. -/
def Behind (start : Cursor) (state : Recovery) : Prop :=
  ∃ passed, start.Past passed state.cursor ∧
    state.marks.Sublist (passed.map Token.mark)

/-- The errors are about tokens that were passed or the next one, in their
order. -/
def UpTo (start : Cursor) (state : Recovery) : Prop :=
  ∃ passed, start.Past passed state.cursor ∧
    state.marks.Sublist (passed.map Token.mark ++ [state.cursor.mark])

/-- The errors are in order, and the next token has one only if reading has
not recovered. -/
structure Ordered (start : Cursor) (state : Recovery) : Prop where
  upTo : state.UpTo start
  behind : state.recovering = false → state.Behind start

theorem Behind.upTo (behind : state.Behind start) : state.UpTo start := by
  obtain ⟨passed, past, ordered⟩ := behind
  exact ⟨passed, past, ordered.trans (List.sublist_append_left _ _)⟩

theorem Behind.ordered (behind : state.Behind start) : state.Ordered start :=
  ⟨behind.upTo, fun _ => behind⟩

theorem Behind.recovered (behind : state.Behind start) :
    state.recovered.Behind start :=
  behind

theorem UpTo.recovered (upTo : state.UpTo start) : state.recovered.UpTo start :=
  upTo

/-- What is behind stays behind. -/
theorem Behind.move {cursor : Cursor} {count : Nat}
    (behind : state.Behind start) (passes : state.cursor.Passes count cursor) :
    Behind start { state with cursor } := by
  obtain ⟨passed, past, ordered⟩ := behind
  obtain ⟨further, tokensEq, _, _⟩ := passes.tokens
  refine ⟨_, past.move passes.stop tokensEq, ordered.trans ?_⟩
  rw [List.map_append]
  exact List.sublist_append_left _ _

/-- When a token is passed, all errors are behind. -/
theorem UpTo.behind_of_tokens {token : Token} {further : List Token}
    {cursor : Cursor} (upTo : state.UpTo start)
    (stop : cursor.stop = state.cursor.stop)
    (tokens : state.cursor.tokens = token :: further ++ cursor.tokens) :
    Behind start { state with cursor } := by
  obtain ⟨passed, past, ordered⟩ := upTo
  have markEq : state.cursor.mark = token.mark := by
    simp [Cursor.mark, Cursor.next?, Cursor.position, tokens, Token.mark]
  refine ⟨_, past.move stop tokens, ordered.trans ?_⟩
  rw [markEq, List.map_append]
  exact List.Sublist.append_left (List.singleton_sublist.mpr (by simp)) _

theorem UpTo.behind_of_passes {cursor : Cursor} (upTo : state.UpTo start)
    (passes : state.cursor.Passes 1 cursor) :
    Behind start { state with cursor } := by
  obtain ⟨further, tokensEq, long, _⟩ := passes.tokens
  cases further with
  | nil => simp at long
  | cons token further => exact upTo.behind_of_tokens passes.stop tokensEq

theorem UpTo.behind_advance {kind : Token.Kind} (upTo : state.UpTo start)
    (head : state.cursor.kinds.head? = some kind) :
    state.advance.Behind start := by
  cases tokensEq : state.cursor.tokens with
  | nil => simp [Cursor.kinds, tokensEq] at head
  | cons token others =>
      exact @UpTo.behind_of_tokens _ _ token [] state.cursor.advance upTo rfl
        (by simp [Cursor.advance, tokensEq])

theorem Ordered.move {cursor : Cursor} (ordered : state.Ordered start)
    (passes : state.cursor.Passes 0 cursor) :
    Ordered start { state with cursor } := by
  obtain ⟨further, tokensEq, _, _⟩ := passes.tokens
  cases further with
  | cons token further =>
      exact (ordered.upTo.behind_of_tokens passes.stop tokensEq).ordered
  | nil =>
      have same : cursor.tokens = state.cursor.tokens := tokensEq.symm
      have markEq : cursor.mark = state.cursor.mark := by
        simp only [Cursor.mark, Cursor.next?, Cursor.position, same,
          passes.stop]
      refine ⟨?_, fun clear => (ordered.behind clear).move passes⟩
      obtain ⟨passed, past, inOrder⟩ := ordered.upTo
      refine ⟨passed,
        ⟨passes.stop.trans past.stop, by rw [past.tokens, same]⟩, ?_⟩
      rw [markEq]
      exact inOrder

/-- Past the end of the input nothing changes. -/
theorem Ordered.advance (ordered : state.Ordered start) :
    state.advance.Ordered start := by
  cases head : state.cursor.kinds.head? with
  | some kind => exact (ordered.upTo.behind_advance head).ordered
  | none =>
      have none : state.cursor.tokens = [] := by simpa [Cursor.kinds] using head
      exact ordered.move ⟨rfl, [], by simp [Cursor.advance, none],
        Nat.le_refl 0, by simp⟩

theorem sublist_of_append_singleton {α : Type} {first second : List α}
    {last : α} (sublist : first.Sublist (second ++ [last]))
    (other : last ∉ first) :
    first.Sublist second := by
  obtain ⟨left, right, rfl, inSecond, inLast⟩ :=
    List.sublist_append_iff.mp sublist
  have none : right = [] := by
    cases right with
    | nil => rfl
    | cons first others =>
        have isLast : first = last := by
          simpa using inLast.subset List.mem_cons_self
        simp [isLast] at other
  rwa [none, List.append_nil]

/-- Nothing is reported at a token that has an error already. -/
theorem Ordered.report (ordered : state.Ordered start)
    (expected : Expectation) : (state.report expected).Ordered start := by
  have added (behind : state.Behind start) :
      Ordered start { state with
        errors := state.errors ++ [state.cursor.unexpected expected],
        recovering := true } := by
    obtain ⟨passed, past, inOrder⟩ := behind
    refine ⟨⟨passed, ⟨past.stop, past.tokens⟩, ?_⟩, by rintro ⟨⟩⟩
    simp only [marks, List.map_append]
    exact inOrder.append (.refl _)
  simp only [Recovery.report]
  split
  · next atEnd =>
      split
      · exact ordered
      · next unreported =>
          refine added ?_
          obtain ⟨passed, past, inOrder⟩ := ordered.upTo
          refine ⟨passed, past, sublist_of_append_singleton inOrder ?_⟩
          intro member
          obtain ⟨error, isError, markEq⟩ := List.mem_map.mp member
          refine unreported (List.any_eq_true.mpr ⟨error, isError, ?_⟩)
          have foundEq : error.found = state.cursor.next? :=
            congrArg Prod.fst markEq
          rw [SyntaxError.isAtEnd, foundEq]
          exact atEnd
  · split
    · exact ordered
    · next recovered => exact added (ordered.behind (by simpa using recovered))

end Recovery

/-- Wherever it stands, the reader goes on from there, and if it succeeds then
it has passed over so many tokens.  It never passes over a `fun`. -/
def Reader.Advances {α : Type} (reader : Reader α) (cost : Nat)
    (cursor : Cursor) : Prop :=
  match reader cursor with
  | .ok _ rest => cursor.Passes cost rest
  | .error _ rest => cursor.Passes 0 rest

theorem Setting.nowhere_fits (cursor : Cursor) : Setting.nowhere.Fits cursor :=
  .inr ⟨rfl, rfl⟩

theorem Setting.Follows.advances {α β : Type} {setting : Setting} {move : α → β}
    {shown : Reader β} {reader : Reader α} {cost : Nat} {cursor : Cursor}
    (follows : setting.Follows move shown reader cost cursor) :
    reader.Advances cost cursor := by
  unfold Setting.Follows at follows
  unfold Reader.Advances
  cases ran : reader cursor with
  | ok value rest =>
      rw [ran] at follows
      exact follows.2
  | error expected rest =>
      rw [ran] at follows
      exact follows.2

namespace Attempt

variable {α β : Type} {start : Cursor} {reader : Attempt α} {plain : Reader α}
  {next : α → Attempt β} {state : Recovery} {between after : Recovery → Prop}

/-- Where the reader succeeds, the state after it is as demanded.  In any case
the errors are in order. -/
def Leads (start : Cursor) (reader : Attempt α) (state : Recovery)
    (after : Recovery → Prop) : Prop :=
  match reader state with
  | .ok _ rest => after rest
  | .error _ rest => rest.Ordered start

theorem leads_pure {value : α} (meets : after state) :
    Leads start (pure value) state after :=
  meets

theorem leads_throw {expected : Expectation} (ordered : state.Ordered start) :
    Leads start (throw expected : Attempt α) state after :=
  ordered

theorem Leads.bind (leads : Leads start reader state between)
    (further : ∀ value rest, between rest →
      Leads start (next value) rest after) :
    Leads start (reader >>= next) state after := by
  unfold Leads at leads
  cases ran : reader state with
  | ok value rest =>
      rw [ran] at leads
      rw [Leads, bind_apply_of_ok ran]
      exact further value rest leads
  | error expected rest =>
      rw [ran] at leads
      have failed : (reader >>= next) state = .error expected rest := by
        simp [Bind.bind, EStateM.bind, ran]
      rw [Leads, failed]
      exact leads

theorem leads_bind_of_ok {value : α} {cursor : Cursor}
    (ran : plain state.cursor = .ok value cursor)
    (further : Leads start (next value) { state with cursor } after) :
    Leads start (liftM plain >>= next) state after := by
  rwa [Leads, bind_apply_of_ok (lift_apply_of_ok ran)]

/-- A plain reader reports nothing. -/
theorem lift_leads_behind {cost : Nat}
    (advances : plain.Advances cost state.cursor)
    (behind : state.Behind start) :
    Leads start (liftM plain) state (Recovery.Behind start) := by
  unfold Reader.Advances at advances
  cases ran : plain state.cursor with
  | ok value cursor =>
      rw [ran] at advances
      rw [Leads, lift_apply_of_ok ran]
      exact behind.move advances
  | error expected cursor =>
      rw [ran] at advances
      rw [Leads, lift_apply_of_error ran]
      exact (behind.move advances).ordered

/-- A plain reader that passes over a token has all errors behind it. -/
theorem lift_leads_past (advances : plain.Advances 1 state.cursor)
    (ordered : state.Ordered start) :
    Leads start (liftM plain) state (Recovery.Behind start) := by
  unfold Reader.Advances at advances
  cases ran : plain state.cursor with
  | ok value cursor =>
      rw [ran] at advances
      rw [Leads, lift_apply_of_ok ran]
      exact ordered.upTo.behind_of_passes advances
  | error expected cursor =>
      rw [ran] at advances
      rw [Leads, lift_apply_of_error ran]
      exact ordered.move advances

theorem leads_advance_bind {kind : Token.Kind} {next : Unit → Attempt β}
    (head : state.cursor.kinds.head? = some kind)
    (ordered : state.Ordered start)
    (further : ∀ rest : Recovery, rest.Behind start →
      Leads start (next ()) rest after) :
    Leads start (liftM Reader.advance >>= next) state after :=
  leads_bind_of_ok (Reader.advance_apply state.cursor)
    (further _ (ordered.upTo.behind_advance head))

theorem leads_accept_bind {kind : Token.Kind} {next : Bool → Attempt β}
    (behind : state.Behind start)
    (further : ∀ (found : Bool) (rest : Recovery), rest.Behind start →
      Leads start (next found) rest after) :
    Leads start (liftM (Reader.accept kind) >>= next) state after := by
  by_cases found : state.cursor.kinds.head? = some kind
  · exact leads_bind_of_ok (Reader.accept_of_head found)
      (further true _ (behind.upTo.behind_advance found))
  · exact leads_bind_of_ok (Reader.accept_of_ne found) (further false _ behind)

theorem leads_expect_bind {kind : Token.Kind} {expected : Expectation}
    {next : Unit → Attempt β} (ordered : state.Ordered start)
    (further : ∀ rest : Recovery, rest.Behind start →
      Leads start (next ()) rest after) :
    Leads start (liftM (Reader.expect kind expected) >>= next) state after := by
  by_cases found : state.cursor.kinds.head? = some kind
  · exact leads_bind_of_ok (Reader.expect_of_head found)
      (further _ (ordered.upTo.behind_advance found))
  · have failed :
        (liftM (Reader.expect kind expected) >>= next : Attempt β) state =
        .error expected state := by
      simp [Bind.bind, EStateM.bind,
        lift_apply_of_error (Reader.expect_of_ne found)]
    rw [Leads, failed]
    exact ordered

end Attempt

namespace Recoverer

variable {start : Cursor} {state : Recovery}

/-- The reader keeps the errors in order. -/
def Orders {α : Type} (start : Cursor) (reader : Recoverer α) : Prop :=
  ∀ state : Recovery, state.Ordered start → (reader state).2.Ordered start

variable {α β : Type} {reader : Recoverer α} {next : α → Recoverer β}

theorem orders_pure (value : α) : Orders start (pure value) :=
  fun _ ordered => ordered

theorem Orders.bind (orders : Orders start reader)
    (further : ∀ value, Orders start (next value)) :
    Orders start (reader >>= next) :=
  fun state ordered => further _ _ (orders state ordered)

theorem next?_orders : Orders start next? :=
  fun _ ordered => ordered

theorem remaining_orders : Orders start remaining :=
  fun _ ordered => ordered

theorem advance_orders : Orders start advance :=
  fun _ ordered => ordered.advance

theorem report_orders (expected : Expectation) :
    Orders start (report expected) :=
  fun _ ordered => ordered.report expected

theorem atListEnd_orders : Orders start Attempt.atListEnd := by
  intro state ordered
  rwa [Attempt.atListEnd_apply]

/-- What follows an attempt can count on the errors being behind where the
attempt succeeded. -/
theorem orders_attempt_bind {reader : Attempt α}
    {next : Except Expectation α → Recoverer β}
    (leads : Attempt.Leads start reader state (Recovery.Behind start))
    (ifOk : ∀ (value : α) (rest : Recovery), rest.Behind start →
      (next (.ok value) rest).2.Ordered start)
    (ifError : ∀ expected, Orders start (next (.error expected))) :
    ((attempt reader >>= next) state).2.Ordered start := by
  unfold Attempt.Leads at leads
  cases ran : reader state with
  | ok value rest =>
      have attempted : attempt reader state = (.ok value, rest) := by
        simp [attempt, ran]
      rw [ran] at leads
      rw [bind_apply_of_eq attempted]
      exact ifOk value rest leads
  | error expected rest =>
      have attempted : attempt reader state = (.error expected, rest) := by
        simp [attempt, ran]
      rw [ran] at leads
      rw [bind_apply_of_eq attempted]
      exact ifError expected rest leads

end Recoverer

namespace Attempt

variable {start : Cursor} {state : Recovery}

section Lists

variable {statement : Attempt Stmt}

theorem listItem_orders
    (leads : ∀ state : Recovery, state.Ordered start →
      Leads start statement state (Recovery.Behind start)) :
    Recoverer.Orders start (listItem statement) := by
  intro state ordered
  apply Recoverer.orders_attempt_bind (leads state ordered)
  · intro value rest behind
    exact behind.recovered.ordered
  · intro expected
    apply (Recoverer.report_orders expected).bind
    intro _
    apply Recoverer.atListEnd_orders.bind
    intro ends
    cases ends with
    | true => exact Recoverer.orders_pure none
    | false => exact Recoverer.advance_orders.bind fun _ =>
        Recoverer.orders_pure none

theorem separator_orders : Recoverer.Orders start separator := by
  intro state ordered
  by_cases found : state.cursor.kinds.head? = some (.symbol .semicolon)
  · rw [separator, Recoverer.bind_apply_of_eq (Recoverer.accept_of_head found)]
    have recovered := (ordered.upTo.behind_advance found).recovered.ordered
    exact (Recoverer.atListEnd_orders.bind fun _ => Recoverer.orders_pure _) _
      recovered
  · rw [separator, Recoverer.bind_apply_of_eq (Recoverer.accept_of_ne found)]
    refine (Recoverer.atListEnd_orders.bind ?_) state ordered
    intro ends
    cases ends with
    | true => exact Recoverer.orders_pure false
    | false => exact (Recoverer.report_orders _).bind fun _ =>
        Recoverer.orders_pure true

theorem statementList_orders
    (leads : ∀ state : Recovery, state.Ordered start →
      Leads start statement state (Recovery.Behind start)) (limit : Nat) :
    Recoverer.Orders start (statementList statement limit) := by
  induction limit with
  | zero => exact Recoverer.orders_pure []
  | succ limit ih =>
      apply (listItem_orders leads).bind
      intro first
      apply separator_orders.bind
      intro goesOn
      cases goesOn with
      | true => exact ih.bind fun _ => Recoverer.orders_pure _
      | false => exact Recoverer.orders_pure _

theorem leads_recoverer_bind {α β : Type} {reader : Recoverer α}
    {next : α → Attempt β} {after : Recovery → Prop}
    (orders : Recoverer.Orders start reader)
    (ordered : state.Ordered start)
    (further : ∀ (value : α) (rest : Recovery), rest.Ordered start →
      Leads start (next value) rest after) :
    Leads start (liftM reader >>= next) state after := by
  have lifted :
      Leads start (liftM reader : Attempt α) state (Recovery.Ordered start) :=
    orders state ordered
  exact lifted.bind further

end Lists

theorem condition_leads (behind : state.Behind start) :
    Leads start (liftM Reader.condition) state (Recovery.Behind start) :=
  lift_leads_behind
    (Setting.condition_follows (Setting.nowhere_fits _)).advances behind

theorem statementWithin_leads (limit : Nat) (state : Recovery)
    (ordered : state.Ordered start) :
    Leads start (statementWithin limit) state (Recovery.Behind start) := by
  induction limit generalizing state with
  | zero => exact leads_throw ordered
  | succ limit ih =>
      apply leads_bind_of_ok (Reader.position_apply state.cursor)
      apply leads_bind_of_ok (Reader.next?_apply state.cursor)
      split
      · next head =>
          apply leads_advance_bind head ordered
          intro behind behindLeads
          apply (condition_leads behindLeads).bind
          intro test tested testedLeads
          apply leads_expect_bind testedLeads.ordered
          intro chosen chosenLeads
          apply (ih chosen chosenLeads.ordered).bind
          intro thenBranch done doneLeads
          apply leads_accept_bind doneLeads
          intro found other otherLeads
          cases found with
          | true => exact (ih other otherLeads.ordered).bind fun _ _ =>
              leads_pure
          | false => exact leads_pure otherLeads
      · next head =>
          apply leads_advance_bind head ordered
          intro behind behindLeads
          apply (condition_leads behindLeads).bind
          intro test tested testedLeads
          apply leads_expect_bind testedLeads.ordered
          intro entered enteredLeads
          exact (ih entered enteredLeads.ordered).bind fun _ _ => leads_pure
      · next head =>
          apply leads_advance_bind head ordered
          intro behind behindLeads
          apply leads_recoverer_bind (statementList_orders ih (limit + 1))
            behindLeads.ordered
          intro statements ended endedOrdered
          exact leads_expect_bind endedOrdered fun _ => leads_pure
      · next head => exact leads_advance_bind head ordered fun _ => leads_pure
      · next head => exact leads_advance_bind head ordered fun _ => leads_pure
      · next head =>
          apply leads_advance_bind head ordered
          intro behind behindLeads
          have read := lift_leads_behind
            (Setting.expr_follows (Setting.nowhere_fits behind.cursor)).advances
              behindLeads
          exact read.bind fun _ _ => leads_pure
      · next head =>
          apply leads_advance_bind head ordered
          intro behind behindLeads
          exact lift_leads_behind
            (Setting.readTarget_follows
              (Setting.nowhere_fits behind.cursor)).advances behindLeads
      · next head =>
          apply leads_advance_bind head ordered
          intro behind behindLeads
          exact lift_leads_behind
            (Setting.writeValue_follows
              (Setting.nowhere_fits behind.cursor)).advances behindLeads
      · next head =>
          apply leads_advance_bind head ordered
          intro behind behindLeads
          exact lift_leads_behind
            (Setting.printText_follows
              (Setting.nowhere_fits behind.cursor)).advances behindLeads
      · next name head =>
          exact lift_leads_past
            (Setting.callOrAssignment_follows
              (Setting.nowhere_fits state.cursor) head).advances
            ordered
      · exact leads_throw ordered

theorem statement_leads (state : Recovery) (ordered : state.Ordered start) :
    Leads start statement state (Recovery.Behind start) :=
  leads_bind_of_ok (Reader.remaining_apply state.cursor)
    (statementWithin_leads _ state ordered)

theorem statements_orders : Recoverer.Orders start statements :=
  Recoverer.remaining_orders.bind fun _ =>
    statementList_orders statement_leads _

theorem functionRest_leads (state : Recovery) (ordered : state.Ordered start) :
    Leads start functionRest state (Recovery.Behind start) := by
  have named := lift_leads_past
    (Setting.identifier_follows .functionName
      (Setting.nowhere_fits state.cursor)).advances ordered
  apply named.bind
  rintro ⟨name, position⟩ begun begunLeads
  apply leads_expect_bind begunLeads.ordered
  intro opened openedLeads
  apply (lift_leads_behind
    (Setting.parameters_follows (Setting.nowhere_fits opened.cursor)).advances
      openedLeads).bind
  intro params listed listedLeads
  apply leads_expect_bind listedLeads.ordered
  intro closed closedLeads
  apply (lift_leads_behind
    (Setting.locals_follows (Setting.nowhere_fits closed.cursor)).advances
      closedLeads).bind
  intro declared reached reachedLeads
  apply leads_expect_bind reachedLeads.ordered
  intro body bodyLeads
  apply leads_recoverer_bind statements_orders bodyLeads.ordered
  intro statements last lastOrdered
  exact leads_expect_bind lastOrdered fun _ => leads_pure

/-- The `fun` of a function may have an error, which is behind as soon as the
function is read. -/
theorem function_leads
    (head : state.cursor.kinds.head? = some (.keyword .funWord))
    (upTo : state.UpTo start) :
    Leads start function state (Recovery.Behind start) := by
  rw [Leads, function_of_head head]
  exact functionRest_leads _ (upTo.behind_advance head).ordered

end Attempt

namespace Recoverer

variable {start : Cursor}

theorem functionsWithin_orders (limit : Nat) :
    Orders start (functionsWithin limit) := by
  induction limit with
  | zero => exact orders_pure []
  | succ limit ih =>
      intro state ordered
      rw [functionsWithin, bind_apply_of_eq (next?_apply state)]
      generalize head : state.cursor.kinds.head? = head?
      split
      · exact ordered
      · rw [bind_apply_of_eq (recovered_apply state)]
        have leads : Attempt.Leads start Attempt.function state.recovered
            (Recovery.Behind start) :=
          Attempt.function_leads head ordered.upTo.recovered
        apply orders_attempt_bind leads
        · intro function rest behind
          exact (ih.bind fun _ => orders_pure _) rest behind.ordered
        · intro expected
          apply (report_orders expected).bind
          intro _
          apply next?_orders.bind
          intro second?
          split
          · exact ih
          · exact advance_orders.bind fun _ => ih
      · exact ((report_orders _).bind fun _ => advance_orders.bind fun _ => ih)
          state ordered

theorem inputEnd_orders (program : Program) :
    Orders start (inputEnd program) := by
  intro state ordered
  rw [inputEnd, bind_apply_of_eq (next?_apply state)]
  cases head : state.cursor.kinds.head? with
  | none => exact ordered
  | some kind =>
      -- All that is left is passed over at once.
      have reported := ordered.report .endOfInput
      have tokens : (state.report .endOfInput).cursor.tokens ≠ [] := by
        rw [state.report_cursor]
        rintro none
        simp [Cursor.kinds, none] at head
      obtain ⟨token, others, tokensEq⟩ := List.exists_cons_of_ne_nil tokens
      exact (@Recovery.UpTo.behind_of_tokens _ _ token others
        { (state.report .endOfInput).cursor with tokens := [] }
          reported.upTo rfl
        (by simp [tokensEq])).ordered

theorem ending_orders (program : Program) : Orders start (ending program) := by
  intro state ordered
  by_cases found : state.cursor.kinds.head? = some (.symbol .semicolon)
  · rw [ending, bind_apply_of_eq (discard_apply_of_eq (accept_of_head found))]
    exact inputEnd_orders program _ (ordered.upTo.behind_advance found).ordered
  · rw [ending, bind_apply_of_eq (discard_apply_of_eq (accept_of_ne found))]
    exact inputEnd_orders program state ordered

theorem statementProgram_orders : Orders start statementProgram := by
  intro state ordered
  rw [statementProgram_eq]
  apply orders_attempt_bind (Attempt.statement_leads state ordered)
  · intro statement rest behind
    exact ending_orders _ rest behind.ordered
  · intro expected
    exact (report_orders expected).bind fun _ => advance_orders.bind fun _ =>
      ending_orders _

theorem program_orders : Orders start program := by
  apply next?_orders.bind
  intro head?
  split
  · exact (report_orders _).bind fun _ => orders_pure _
  · apply remaining_orders.bind
    intro limit
    exact (functionsWithin_orders limit).bind fun _ => orders_pure _
  · exact statementProgram_orders

end Recoverer

end PL0
