import LineAsm.Proofs.Encoding
/-!
# Dispatch and code agree on shapes

Dispatch looks at the patterns of a family, and the code of the family looks at the tokens again.
What dispatch accepts is written by the branch of the one pattern that matches the line, in whatever
state; the code never finds that the line has another shape, or that a token is no operand
(`Family.emit_branch`). So in every call the causes that blame the tokens of a line come from
dispatch alone.
-/

namespace LineAsm

/-- A cause that spares the tokens is neither that a line is none of the dialect nor that a token is
no operand. -/
theorem CompileError.sparesShape_iff {cause : CompileError} :
    cause.SparesShape ↔ (∀ reason, cause ≠ .dialect reason) ∧
      ∀ value, cause ≠ .emission (.invalidOperands (.notOperand value)) := by
  constructor
  · intro spares
    constructor <;> rintro _ rfl <;> cases spares
  · rintro ⟨recognized, named⟩
    unfold SparesShape blamesShape
    split
    · exact absurd rfl (recognized _)
    · exact absurd rfl (named _)
    · rfl

namespace Compiler

/-- A line that fails for a cause that blames its tokens has not been dispatched. -/
theorem refused_of_step {σ : Type} [Sink σ] {compiler : Compiler Family} (ready : compiler.Ready)
    {sink : σ} {read : Read} {failure : LocatedError}
    (failed : (compiler.step sink read).1 = .error failure)
    (blames : failure.cause.blamesShape = true) :
    ∃ text reason, failure.text = some text ∧ failure.cause = .dialect reason ∧
      Table.parse Family.standard text = .error reason := by
  have known := steps ready sink read
  generalize compiler.step sink read = result at known failed
  cases known with
  | lost | refused =>
    cases failed
    cases blames
  | @failed raw cause answered =>
    cases failed
    have outcome := (Reading.line_eq (textOf raw) compiler.toDraft).trans
      (Effect.onto_eq_error_iff.mpr ⟨answered, rfl⟩)
    obtain ⟨reason, same, refused⟩ := (encodes_line (textOf raw)).of_error outcome blames
    exact ⟨textOf raw, reason, rfl, same, refused⟩
  | passed => cases failed

end Compiler

namespace Family

/-- A line that the standard table dispatches matches one pattern of its owner, and the owner writes
the code of the branch of this pattern. In no state does the code fail because the line is none of
the dialect or because a token is no operand. In any call of a compiler, a failure of the first kind
is the one that the line is refused with by the table, and a failure of the second kind does not
occur. -/
theorem emit_branch :
    (∀ text dispatch, Table.parse standard text = .ok dispatch →
      ∃ pattern ∈ dispatch.owner.patterns, pattern.matchesLine dispatch.tokens = true ∧
        (∀ other ∈ dispatch.owner.patterns, other.matchesLine dispatch.tokens = true →
          other = pattern) ∧
        Branch dispatch.owner pattern dispatch.tokens (dispatch.owner.emit dispatch.tokens) ∧
        ∀ draft cause after, dispatch.owner.emit dispatch.tokens draft = .error cause after →
          (∀ reason, cause ≠ .dialect reason) ∧
          ∀ value, cause ≠ .emission (.invalidOperands (.notOperand value))) ∧
    ∀ {σ : Type} [Sink σ] (compiler : Compiler Family) (sink : σ) (source : List Read) failure,
      compiler.Reachable → (compiler.compile sink source).failure = some failure →
        (∀ reason, failure.cause = .dialect reason →
          ∃ text, failure.text = some text ∧ Table.parse standard text = .error reason) ∧
        ∀ value, failure.cause ≠ .emission (.invalidOperands (.notOperand value)) := by
  constructor
  · intro text dispatch parsed
    obtain ⟨classified, pattern, member, matched, branch⟩ := branch_of_parse parsed
    refine ⟨pattern, member, matched, fun other listed again => ?_, branch, ?_⟩
    · exact eq_of_matchesLine classified listed member again matched
    · intro draft cause after failed
      exact CompileError.sparesShape_iff.mp ((encodes_of_parse parsed).of_error failed)
  · intro σ _ compiler sink source failure reachable failed
    obtain ⟨before, read, after, here, taken, -, passed, stopped⟩ :=
      Compiler.exists_step_of_failure failed
    have there := passed.ready reachable.ready.restart
    constructor
    · intro reason cause
      obtain ⟨text, found, shown, same, refused⟩ :=
        Compiler.refused_of_step there stopped (by rw [cause]; rfl)
      obtain rfl := CompileError.dialect.inj (cause.symm.trans same)
      exact ⟨text, shown, refused⟩
    · intro value cause
      obtain ⟨text, reason, -, same, -⟩ :=
        Compiler.refused_of_step there stopped (by rw [cause]; rfl)
      cases cause.symm.trans same

/-- A named place is written by the branch of its pattern, although a jump has as many tokens. Two
registers are no line: the table refuses them, and so does the call that comes to them. -/
theorem emit_branch_label :
    let pattern : Pattern := [.kind .identifier, .text ":"]
    let compiler := Compiler.new {} standard
    let failure : LocatedError := ⟨.dialect (.unrecognized "EBX"), 2, some "EAX EBX"⟩
    (∃ dispatch, Table.parse standard "goto_: " = .ok dispatch ∧ dispatch.owner = .flow ∧
      Branch .flow pattern dispatch.tokens (emit .flow dispatch.tokens)) ∧
    compiler.Reachable ∧
    (compiler.compile "" [.ok "namespace K", .ok "EAX EBX"]).failure = some failure ∧
    Table.parse standard "EAX EBX" = .error (.unrecognized "EBX") := by
  intro pattern compiler failure
  have reachable : compiler.Reachable := ⟨{}, .refl⟩
  have failed : (compiler.compile "" [.ok "namespace K", .ok "EAX EBX"]).failure =
      some failure := by decide +kernel
  have dispatched : ((Table.parse standard "goto_: ").toOption.any fun dispatch =>
      dispatch.owner == .flow && pattern.matchesLine dispatch.tokens) = true := by decide +kernel
  refine ⟨?_, reachable, failed, ?_⟩
  · cases parsed : Table.parse standard "goto_: " with
    | error cause =>
      rw [parsed] at dispatched
      cases dispatched
    | ok dispatch =>
      rw [parsed] at dispatched
      obtain ⟨owned, matched⟩ := Bool.and_eq_true_iff.mp dispatched
      have owner : dispatch.owner = .flow := eq_of_beq owned
      obtain ⟨found, -, -, unique, branch, -⟩ := emit_branch.1 _ dispatch parsed
      have member : pattern ∈ dispatch.owner.patterns := by
        rw [owner]
        decide
      obtain rfl := unique pattern member matched
      rw [owner] at branch
      exact ⟨dispatch, rfl, owner, branch⟩
  · obtain ⟨text, shown, refused⟩ :=
      (emit_branch.2 compiler "" _ failure reachable failed).1 _ rfl
    obtain rfl := Option.some.inj shown
    exact refused

end Family

end LineAsm
