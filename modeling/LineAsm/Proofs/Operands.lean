import LineAsm.Dialect.Port
import LineAsm.Proofs.Coverage
import LineAsm.Proofs.Yields
/-!
# Operands that can be encoded

An operation takes some operands when at most one of them is memory, the first is a number only for
a push or an output, and the memory is written with its width exactly where no register tells it
(`Mnemonic.Takes`). An operand that a token names is memory, a number or a register as the token is
(`Operand.Names`), and asking for it never fails because the token is no operand
(`Operand.meets_ofToken`). So two operands that are asked for together are taken by every operation
that is neither a shift nor a push (`Operand.meets_pair`).
-/

namespace LineAsm

/-- A cause that blames the tokens of a line, or one of them, for what they are. -/
def CompileError.blamesShape : CompileError → Bool
  | .dialect _ => true
  | .emission (.invalidOperands (.notOperand _)) => true
  | _ => false

/-- A cause that does not blame the tokens. -/
abbrev CompileError.SparesShape (cause : CompileError) : Prop := cause.blamesShape = false

namespace Operand.Form

/-- A register. -/
def isRegister : Form → Bool
  | .register _ => true
  | _ => false

/-- A number. -/
def isImmediate : Form → Bool
  | .immediate _ => true
  | _ => false

/-- Memory is no register. -/
theorem isRegister_of_isMemory {form : Form} (memory : form.isMemory = true) :
    form.isRegister = false := by
  cases form with
  | register => cases memory
  | _ => rfl

/-- A form that says what its text says: no text is copied without knowing what it is. -/
def IsGenuine (form : Form) : Prop :=
  match form with
  | .register _ => Token.classify form.text = some .register
  | .immediate _ =>
    Token.classify form.text = some .integer ∨ (Port.value? form.text.toList).any (· < 256) = true
  | .memory _ => Token.classify form.text = some .memory
  | .variable symbol => form.text = "[" ++ symbol.text ++ "]"
  | .target symbol => form.text = symbol.text
  | .word _ => False

end Operand.Form

namespace Mnemonic

/-- A shift or rotation, whose second operand is only a count. -/
def isShift : Mnemonic → Bool
  | .shl | .shr | .rol | .ror => true
  | _ => false

/-- The operands whose width is the width of the operation: all but the count of a shift. -/
def sizing (mnemonic : Mnemonic) (operands : List Operand) : List Operand :=
  if mnemonic.isShift then operands.take 1 else operands

/-- Whether an operand is to be written with its width: memory that no register beside it gives a
width, and a number that is pushed. -/
def StatesWidth (mnemonic : Mnemonic) (operands : List Operand) (operand : Operand) : Prop :=
  (operand.form.isMemory = true ∧
      ∀ other ∈ mnemonic.sizing operands, other.form.isRegister = false) ∨
    (mnemonic = .push ∧ operand.form.isImmediate = true)

/-- Operands that an operation can be encoded with, as they are written. -/
structure Takes (mnemonic : Mnemonic) (operands : List Operand) : Prop where
  /-- The operands are what their forms say. -/
  genuine : ∀ operand ∈ operands, operand.form.IsGenuine
  /-- At most one operand is memory. -/
  oneMemory : (operands.filter fun operand => operand.form.isMemory).length ≤ 1
  /-- The first operand is a number only where it is pushed or names a port. -/
  immediateFirst : ∀ first ∈ operands.head?, first.form.isImmediate = true →
    mnemonic.text = "push" ∨ mnemonic.text = "out"
  /-- The width is written in front of an operand that is to state it. -/
  width : ∀ operand ∈ operands, mnemonic.StatesWidth operands operand →
    operand.text = "dword " ++ operand.form.text
  /-- Nothing is written in front of any other operand. -/
  bare : ∀ operand ∈ operands, ¬ mnemonic.StatesWidth operands operand →
    operand.text = operand.form.text

section Takes

variable {mnemonic : Mnemonic} {operands : List Operand} {operand first second : Operand}

/-- Operands are taken if those that are to be written with their width are those that say it. -/
theorem takes_of_dword (genuine : ∀ operand ∈ operands, operand.form.IsGenuine)
    (oneMemory : (operands.filter fun operand => operand.form.isMemory).length ≤ 1)
    (leading : ∀ first ∈ operands.head?, first.form.isImmediate = true →
      mnemonic = .push ∨ mnemonic = .output)
    (stated : ∀ operand ∈ operands,
      operand.dword = true ↔ mnemonic.StatesWidth operands operand) : mnemonic.Takes operands where
  genuine := genuine
  oneMemory := oneMemory
  immediateFirst := by
    intro first head immediate
    obtain rfl | rfl := leading first head immediate
    · exact .inl rfl
    · exact .inr rfl
  width := by
    intro operand member states
    rw [Operand.text, if_pos ((stated operand member).mpr states)]
  bare := by
    intro operand member tells
    rw [Operand.text, if_neg (mt (stated operand member).mp tells)]

/-- Every operation can stand alone. -/
theorem takes_nil : mnemonic.Takes [] :=
  takes_of_dword nofun (Nat.zero_le 1) nofun nofun

/-- Memory that stands alone is to state its width, and so is a number that is pushed. -/
theorem statesWidth_one : mnemonic.StatesWidth [operand] operand ↔
    operand.form.isMemory = true ∨ (mnemonic = .push ∧ operand.form.isImmediate = true) := by
  have alone : mnemonic.sizing [operand] = [operand] := by
    unfold sizing
    split <;> rfl
  unfold StatesWidth
  rw [alone, List.forall_mem_singleton, and_iff_left_of_imp Operand.Form.isRegister_of_isMemory]

/-- One operand, which says its width if it is memory or a number that is pushed. -/
theorem takes_one (genuine : operand.form.IsGenuine)
    (first : operand.form.isImmediate = true → mnemonic = .push ∨ mnemonic = .output)
    (sized : operand.dword = true ↔ operand.form.isMemory = true ∨
      (mnemonic = .push ∧ operand.form.isImmediate = true)) : mnemonic.Takes [operand] := by
  refine takes_of_dword (List.forall_mem_singleton.mpr genuine) (List.length_filter_le _ _) ?_
    (List.forall_mem_singleton.mpr (sized.trans statesWidth_one.symm))
  intro operand same
  rw [← Option.some.inj same]
  exact first

/-- A place in the code. -/
theorem takes_target (symbol : Symbol) : mnemonic.Takes [.target symbol] := by
  refine takes_one rfl nofun ⟨nofun, ?_⟩
  rintro (memory | ⟨-, immediate⟩)
  · cases memory
  · cases immediate

/-- Two operands of which one is no memory. -/
theorem takes_two (one : first.form.IsGenuine) (other : second.form.IsGenuine)
    (apart : first.form.isMemory = false ∨ second.form.isMemory = false)
    (leading : first.form.isImmediate = true → mnemonic = .push ∨ mnemonic = .output)
    (left : first.dword = true ↔ mnemonic.StatesWidth [first, second] first)
    (right : second.dword = true ↔ mnemonic.StatesWidth [first, second] second) :
    mnemonic.Takes [first, second] := by
  have oneMemory : ([first, second].filter fun operand => operand.form.isMemory).length ≤ 1 := by
    obtain none | none := apart
    · rw [List.filter_cons_of_neg (by simp [none])]
      exact List.length_filter_le _ [second]
    · have alone : [second].filter (fun operand => operand.form.isMemory) = [] := by simp [none]
      rw [List.filter_cons, alone]
      split <;> simp
  refine takes_of_dword (List.forall_mem_cons.mpr ⟨one, List.forall_mem_singleton.mpr other⟩)
    oneMemory ?_ (List.forall_mem_cons.mpr ⟨left, List.forall_mem_singleton.mpr right⟩)
  intro operand same
  rw [← Option.some.inj same]
  exact leading

/-- Where nothing is pushed, what is no memory does not state a width. -/
theorem not_statesWidth (unpushed : mnemonic ≠ .push) (unmemory : operand.form.isMemory = false) :
    ¬ mnemonic.StatesWidth operands operand := by
  rintro (⟨memory, -⟩ | ⟨push, -⟩)
  · exact absurd memory (Bool.eq_false_iff.mp unmemory)
  · exact unpushed push

/-- Two operands that are no memory and say no width. -/
theorem takes_register (unpushed : mnemonic ≠ .push)
    (one : first.form.IsGenuine) (other : second.form.IsGenuine)
    (places : first.form.isMemory = false ∧ second.form.isMemory = false)
    (widths : first.dword = false ∧ second.dword = false)
    (leading : first.form.isImmediate = true → mnemonic = .push ∨ mnemonic = .output) :
    mnemonic.Takes [first, second] :=
  takes_two one other (.inl places.1) leading
    (iff_of_false (Bool.eq_false_iff.mp widths.1) (not_statesWidth unpushed places.1))
    (iff_of_false (Bool.eq_false_iff.mp widths.2) (not_statesWidth unpushed places.2))

end Takes

end Mnemonic

/-- A statement whose operation can be encoded, if it is an instruction. -/
def Statement.IsEncodable : Statement → Prop
  | .instruction mnemonic operands => mnemonic.Takes operands
  | _ => True

/-- A token that names an operand, and whose text has the kind of the token. -/
structure Token.Operative (token : Token) : Prop where
  /-- The kind is one that names an operand. -/
  kind : token.kind ∈ [Kind.register, .integer, .identifier, .memory]
  /-- The text alone has this kind. -/
  classified : Token.classify token.value = some token.kind

/-- What names an operand and is neither a number nor memory is a register. -/
theorem Token.Operative.register_of_apart {token : Token} (operative : token.Operative)
    (writable : token.kind ≠ .integer) (apart : token.isMemory = false) :
    token.kind = .register := by
  have kinds := operative.kind
  simp only [isMemory, Bool.or_eq_false_iff, beq_eq_false_iff_ne] at apart
  simpa [writable, apart.1, apart.2] using kinds

/-- The namespace in force is missing or known. -/
theorem State.meets_qualifier (state : State) :
    Meets (fun _ => True) CompileError.SparesShape state.qualifier := by
  unfold State.qualifier
  cases state.space with
  | ok space => exact trivial
  | error cause => exact rfl

namespace Operand

/-- The width of an operand may be stated, but not what it refers to. -/
@[simp] theorem form_sized (operand : Operand) : operand.sized.form = operand.form := by
  unfold sized
  split <;> rfl

/-- A sized operand that is memory has its width stated. -/
theorem dword_sized {operand : Operand} (memory : operand.form.isMemory = true) :
    operand.sized.dword = true := by
  obtain ⟨form, width⟩ := operand
  cases form with
  | register | immediate | target | word => cases memory
  | _ => rfl

/-- A sized operand that said no width before has it stated exactly if it is memory or a number. -/
theorem dword_sized_iff {operand : Operand} (silent : operand.dword = false) :
    operand.sized.dword = true ↔
      operand.form.isMemory = true ∨ operand.form.isImmediate = true := by
  obtain ⟨form, width⟩ := operand
  obtain rfl : width = false := silent
  cases form <;> simp [sized, Form.isMemory, Form.isImmediate]

/-- A token that is copied says no width. -/
theorem dword_verbatim (token : Token) : (verbatim token).dword = false := by
  unfold verbatim
  split <;> rfl

section Tokens

variable {token : Token} {state : State} {operand : Operand}

/-- What a token names is a register, a number or an address as it stands, or a variable of the
namespace. -/
theorem ofToken_cases (named : ofToken token state = .ok operand) :
    token.kind = .register ∧ operand = register token.value ∨
      token.kind = .integer ∧ operand = immediate token.value ∨
      token.kind = .memory ∧ operand = ⟨.memory token.value, false⟩ ∨
      token.kind = .identifier ∧ ∃ space, state.qualifier = .ok space ∧
        operand = ⟨.variable (.member space token.value), false⟩ := by
  unfold ofToken at named
  cases kind : token.kind with
  | register =>
    simp only [kind, verbatim] at named
    exact .inl ⟨rfl, (Except.ok.inj named).symm⟩
  | integer =>
    simp only [kind, verbatim] at named
    exact .inr (.inl ⟨rfl, (Except.ok.inj named).symm⟩)
  | memory =>
    simp only [kind, verbatim] at named
    exact .inr (.inr (.inl ⟨rfl, (Except.ok.inj named).symm⟩))
  | identifier =>
    rw [kind] at named
    cases qualified : state.qualifier with
    | error cause =>
      rw [qualified] at named
      cases named
    | ok space =>
      rw [qualified] at named
      exact .inr (.inr (.inr ⟨rfl, space, rfl, (Except.ok.inj named).symm⟩))
  | comment | literal | keyword | text | symbol =>
    rw [kind] at named
    cases named

/-- The operand that a token names says no width. -/
theorem dword_of_ofToken (named : ofToken token state = .ok operand) : operand.dword = false := by
  obtain ⟨-, rfl⟩ | ⟨-, rfl⟩ | ⟨-, rfl⟩ | ⟨-, space, -, rfl⟩ := ofToken_cases named <;> rfl

/-- What a token names is memory exactly if the token is. -/
theorem isMemory_of_ofToken (named : ofToken token state = .ok operand) :
    operand.form.isMemory = token.isMemory := by
  rw [Token.isMemory]
  obtain ⟨kind, rfl⟩ | ⟨kind, rfl⟩ | ⟨kind, rfl⟩ | ⟨kind, space, -, rfl⟩ := ofToken_cases named
  all_goals
    rw [kind]
    rfl

end Tokens

/-- An operand that refers to what a token names. -/
structure Names (token : Token) (operand : Operand) : Prop where
  /-- The operand is what its form says. -/
  genuine : operand.form.IsGenuine
  /-- It is a register if the token is one. -/
  register : operand.form.isRegister = (token.kind == .register)
  /-- It is a number if the token is one. -/
  immediate : operand.form.isImmediate = (token.kind == .integer)
  /-- It is memory if the token is an address or a variable. -/
  memory : operand.form.isMemory = token.isMemory

section Naming

variable {token : Token} {operand : Operand}

/-- A sized operand refers to what it referred to before. -/
theorem Names.sized (names : Names token operand) : Names token operand.sized := by
  obtain ⟨genuine, register, immediate, memory⟩ := names
  constructor <;> rwa [form_sized]

/-- What is named by a token that is no number is no number. -/
theorem Names.ne_immediate (names : Names token operand) (writable : token.kind ≠ .integer) :
    operand.form.isImmediate ≠ true := by
  rw [names.immediate]
  exact mt beq_iff_eq.mp writable

/-- A register, a number or an address is copied as the operand it names. -/
theorem names_verbatim (operative : token.Operative) (copied : token.kind ≠ .identifier) :
    Names token (verbatim token) := by
  obtain ⟨kind, value, column⟩ := token
  obtain ⟨known, classified⟩ := operative
  have kinds : kind = .register ∨ kind = .integer ∨ kind = .identifier ∨ kind = .memory := by
    simpa using known
  obtain rfl | rfl | rfl | rfl := kinds
  · exact ⟨classified, rfl, rfl, rfl⟩
  · exact ⟨.inl classified, rfl, rfl, rfl⟩
  · exact absurd rfl copied
  · exact ⟨classified, rfl, rfl, rfl⟩

/-- What is counted with, a number or a register, is copied as it is written. -/
theorem names_count (operative : token.Operative) (counted : token.isMemory = false) :
    Names token (verbatim token) := by
  refine names_verbatim operative fun same => ?_
  rw [Token.isMemory, same] at counted
  cases counted

/-- A token that names an operand is never refused for its kind, and the operand says no width. -/
theorem meets_ofToken (operative : token.Operative) (state : State) :
    Meets (fun operand => Names token operand ∧ operand.dword = false) CompileError.SparesShape
      (ofToken token state) := by
  by_cases word : token.kind = .identifier
  · have known := State.meets_qualifier state
    unfold ofToken
    rw [word]
    dsimp only
    cases qualified : state.qualifier with
    | error cause =>
      rw [qualified] at known
      exact known
    | ok space =>
      refine ⟨⟨rfl, ?_, ?_, ?_⟩, rfl⟩ <;> simp [Token.isMemory, word, Form.isRegister,
        Form.isImmediate, Form.isMemory]
  · have copied : ofToken token state = .ok (verbatim token) := by
      have known := operative.kind
      unfold ofToken
      cases kind : token.kind <;> simp_all
    rw [copied]
    exact ⟨names_verbatim operative word, dword_verbatim token⟩

/-- A sized operand that a token names has its width stated exactly if it is memory or a number. -/
theorem meets_sizedOfToken (operative : token.Operative) (state : State) :
    Meets (fun operand => Names token operand ∧ (operand.dword = true ↔
      operand.form.isMemory = true ∨ operand.form.isImmediate = true)) CompileError.SparesShape
        (sizedOfToken token state) := by
  have known := meets_ofToken operative state
  unfold sizedOfToken
  cases named : ofToken token state with
  | error cause =>
    rw [named] at known
    exact known
  | ok operand =>
    rw [named] at known
    obtain ⟨names, silent⟩ := known
    have width := dword_sized_iff silent
    rw [← form_sized operand] at width
    exact ⟨names.sized, width⟩

/-- One sized operand is taken by an operation that is a push or does not get a number. -/
theorem takes_sized {mnemonic : Mnemonic} (names : Names token operand)
    (width : operand.dword = true ↔
      operand.form.isMemory = true ∨ operand.form.isImmediate = true)
    (allowed : mnemonic = .push ∨ token.kind ≠ .integer) : mnemonic.Takes [operand] := by
  have pushed : operand.form.isImmediate = true → mnemonic = .push := by
    intro immediate
    obtain push | other := allowed
    · exact push
    · exact absurd immediate (names.ne_immediate other)
  refine Mnemonic.takes_one names.genuine (fun immediate => .inl (pushed immediate)) ?_
  rw [width, and_iff_right_of_imp pushed]

end Naming

section Pairs

variable {destination source : Token} {first second : Operand} {mnemonic : Mnemonic}

/-- Two operands of which one is no memory and the first is no number are taken by an operation
that is neither a shift nor a push, if the first says its width exactly where it is memory and the
second a number, and the second says none. -/
theorem takes_of_names (plain : mnemonic.isShift = false) (unpushed : mnemonic ≠ .push)
    (one : Names destination first) (other : Names source second)
    (left : destination.Operative) (right : source.Operative)
    (writable : destination.kind ≠ .integer)
    (apart : (destination.isMemory && source.isMemory) = false)
    (width : first.dword = (destination.isMemory && source.kind == .integer))
    (silent : second.dword = false) : mnemonic.Takes [first, second] := by
  have sizing : mnemonic.sizing [first, second] = [first, second] := by
    rw [Mnemonic.sizing, plain]
    rfl
  have states (operand : Operand) : mnemonic.StatesWidth [first, second] operand ↔
      operand.form.isMemory = true ∧ destination.kind ≠ .register ∧ source.kind ≠ .register := by
    rw [Mnemonic.StatesWidth, sizing, List.forall_mem_cons, List.forall_mem_singleton,
      one.register, other.register, beq_eq_false_iff_ne, beq_eq_false_iff_ne]
    exact or_iff_left fun push => unpushed push.1
  have places : first.form.isMemory = false ∨ second.form.isMemory = false := by
    rw [one.memory, other.memory]
    exact Bool.and_eq_false_iff.mp apart
  refine Mnemonic.takes_two one.genuine other.genuine places
    (fun immediate => absurd immediate (one.ne_immediate writable)) ?_ ?_
  · rw [states first, one.memory, width, Bool.and_eq_true, beq_iff_eq]
    constructor
    · rintro ⟨memory, number⟩
      refine ⟨memory, ?_, ?_⟩
      · intro register
        rw [Token.isMemory, register] at memory
        cases memory
      · rw [number]
        decide
    · -- What stands beside memory and is no register is a number, for it is no memory either.
      rintro ⟨memory, -, unregister⟩
      rw [memory, Bool.true_and] at apart
      refine ⟨memory, ?_⟩
      by_contra number
      exact unregister (right.register_of_apart number apart)
  · rw [states second, other.memory, silent]
    refine iff_of_false nofun ?_
    -- The first operand is then neither memory nor a number, so it is a register after all.
    rintro ⟨memory, unregister, -⟩
    rw [memory, Bool.and_true] at apart
    exact unregister (left.register_of_apart writable apart)

/-- The first of two operands says its width exactly where it is memory and the second a number. -/
theorem meets_first (left : destination.Operative) (source : Token) (state : State) :
    Meets (fun operand => Names destination operand ∧
      operand.dword = (destination.isMemory && source.kind == .integer)) CompileError.SparesShape
      (if destination.isMemory && source.kind == .integer then sizedOfToken destination state
        else ofToken destination state) := by
  split
  · rename_i stated
    refine (meets_sizedOfToken left state).mono fun operand ⟨names, width⟩ => ⟨names, ?_⟩
    have memory := (Bool.and_eq_true_iff.mp stated).1
    rw [stated]
    exact width.mpr (.inl (names.memory.trans memory))
  · rename_i unstated
    refine (meets_ofToken left state).mono fun operand ⟨names, silent⟩ => ⟨names, ?_⟩
    rw [silent, Bool.of_not_eq_true unstated]

/-- Operands that can be asked for together are asked for one after the other. -/
theorem pair_eq_bind (writable : destination.kind ≠ .integer)
    (apart : (destination.isMemory && source.isMemory) = false) (state : State) :
    pair destination source state =
      (if destination.isMemory && source.kind == .integer then sizedOfToken destination state
        else ofToken destination state) >>= fun first =>
          ofToken source state >>= fun second => .ok [first, second] := by
  unfold pair
  rw [if_neg (mt beq_iff_eq.mp writable), if_neg (Bool.eq_false_iff.mp apart)]
  split <;> rfl

/-- Two operands that are asked for together are an operand that can be written to and another one,
and one of them is no memory. The first has its width stated if it is memory and the second is a
number. -/
theorem pair_eq_ok {state : State} {operands : List Operand}
    (asked : pair destination source state = .ok operands) :
    destination.kind ≠ .integer ∧ (destination.isMemory && source.isMemory) = false ∧
      ∃ first second, operands = [first, second] ∧
        (if destination.isMemory && source.kind == .integer then sizedOfToken destination state
          else ofToken destination state) = .ok first ∧
        ofToken source state = .ok second := by
  have writable : destination.kind ≠ .integer := by
    intro number
    rw [pair, if_pos (beq_iff_eq.mpr number)] at asked
    cases asked
  have apart : (destination.isMemory && source.isMemory) = false := by
    by_contra both
    rw [pair, if_neg (mt beq_iff_eq.mp writable), if_pos (Bool.of_not_eq_false both)] at asked
    cases asked
  rw [pair_eq_bind writable apart] at asked
  refine ⟨writable, apart, ?_⟩
  generalize (if destination.isMemory && source.kind == .integer then sizedOfToken destination state
    else ofToken destination state) = place at asked ⊢
  cases place with
  | error cause => cases asked
  | ok first =>
    cases named : ofToken source state with
    | error cause =>
      rw [named] at asked
      cases asked
    | ok second =>
      rw [named] at asked
      cases asked
      exact ⟨first, second, rfl, rfl, rfl⟩

/-- Operands that are asked for together are taken by every operation that is neither a shift nor a
push. -/
theorem meets_pair (left : destination.Operative) (right : source.Operative) (state : State) :
    Meets (fun operands => ∀ mnemonic : Mnemonic, mnemonic.isShift = false → mnemonic ≠ .push →
      mnemonic.Takes operands) CompileError.SparesShape (pair destination source state) := by
  by_cases number : destination.kind = .integer
  · rw [pair, if_pos (beq_iff_eq.mpr number)]
    exact rfl
  · by_cases both : (destination.isMemory && source.isMemory) = true
    · rw [pair, if_neg (mt beq_iff_eq.mp number), if_pos both]
      exact rfl
    · have apart := Bool.of_not_eq_true both
      rw [pair_eq_bind number apart]
      refine (meets_first left source state).bind fun first known => ?_
      obtain ⟨one, width⟩ := known
      refine (meets_ofToken right state).bind fun second known => ?_
      obtain ⟨other, silent⟩ := known
      intro mnemonic plain unpushed
      exact takes_of_names plain unpushed one other left right number apart width silent

end Pairs

end Operand

namespace Text

/-- The ways to write some capitals in any mix of upper and lower case. -/
def spellings : List Char → List (List Char)
  | [] => [[]]
  | c :: cs => (spellings cs).flatMap fun rest => [c.toLower :: rest, c :: rest]

/-- A letter in lower case has been one of two letters. -/
theorem eq_or_eq_of_toLower {c small large : Char} (capital : large ≠ small)
    (lower : large.toLower = small) (same : c.toLower = small) : c = small ∨ c = large := by
  unfold Char.toLower at same lower
  split at same
  · split at lower
    · have codes := congrArg Char.val (same.trans lower.symm)
      exact .inr (Char.ext ((UInt32.add_left_inj _).mp codes))
    · exact absurd lower capital
  · exact .inl same

/-- Letters that differ from capitals at most in their case are a way to write them. -/
theorem mem_spellings {letters capitals : List Char}
    (large : capitals.all (fun c => c != c.toLower) = true)
    (same : letters.map Char.toLower = capitals.map Char.toLower) :
    letters ∈ spellings capitals := by
  induction capitals generalizing letters with
  | nil =>
    rw [List.map_eq_nil_iff.mp same]
    exact List.mem_singleton_self _
  | cons capital capitals ih =>
    obtain ⟨first, rest, rfl, one, others⟩ := List.map_eq_cons_iff.mp same
    rw [List.all_cons, Bool.and_eq_true, bne_iff_ne] at large
    have tail := ih large.2 others
    refine List.mem_flatMap.mpr ⟨rest, tail, ?_⟩
    have head := eq_or_eq_of_toLower large.1 rfl one
    rcases head with rfl | rfl
    · exact List.mem_cons_self
    · exact List.mem_cons_of_mem _ List.mem_cons_self

end Text

namespace Port

/-- The port register is a register in whatever case it is written. -/
theorem classify_of_sameLetters {port : String} (same : Text.sameLetters port "DX" = true) :
    Token.classify port = some .register := by
  have known : ∀ letters ∈ Text.spellings ['D', 'X'],
      Token.classify (.ofList letters) = some .register := by decide +kernel
  have spelled := known _ (Text.mem_spellings (by decide) (eq_of_beq same))
  rwa [String.ofList_toList] at spelled

/-- The operand of a port is a register or a number, and says no width. -/
theorem operand_eq_ok {token : Token} {place : Operand} (named : operand token = .ok place) :
    place.form.IsGenuine ∧ place.form.isMemory = false ∧ place.dword = false := by
  unfold operand at named
  dsimp only at named
  split at named
  · rename_i same
    obtain rfl := Except.ok.inj named
    exact ⟨classify_of_sameLetters same, rfl, rfl⟩
  · split at named
    · rename_i number
      obtain rfl := Except.ok.inj named
      exact ⟨.inr number, rfl, rfl⟩
    · cases named

/-- What is no port is refused for what its brackets hold. -/
theorem operand_eq_error {token : Token} {cause : OperandError}
    (refused : operand token = .error cause) : cause = .badPort (inside token.value) := by
  unfold operand at refused
  dsimp only at refused
  split at refused
  · cases refused
  · split at refused
    · cases refused
    · exact (Except.error.inj refused).symm

end Port

end LineAsm
