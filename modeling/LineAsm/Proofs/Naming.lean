import LineAsm.Proofs.Functions
/-!
# The function that symbols are made for

The name of a function is not kept from its entry on: every symbol made for it is put together from
the function and from the namespace in force where the symbol is needed. So the places that the
lines of a function jump to and name are made for the function under the namespace that the lines
before have left (`Passage.Holds.made_places`). They carry the name of the entry exactly as long as
this is the namespace of the entry (`Compiler.places_named_as_entry`): a line that declares another
one parts the labels and jumps after it from those before.
-/

namespace LineAsm

namespace Symbol

/-- The digits of a number, back to the letter before them, can be read from the end of a text. -/
theorem digits_eq_of_append {front back : List Char} {id other : Nat}
    (same : front ++ 'k' :: Nat.toDigits 10 id = back ++ 'k' :: Nat.toDigits 10 other) :
    Nat.toDigits 10 id = Nat.toDigits 10 other := by
  have read (before : List Char) (number : Nat) :
      (before ++ 'k' :: Nat.toDigits 10 number).reverse.takeWhile Char.isDigit =
        (Nat.toDigits 10 number).reverse := by
    have digits : ∀ c ∈ (Nat.toDigits 10 number).reverse, c.isDigit = true := fun c member =>
      Nat.isDigit_of_mem_toDigits (by decide) (by decide) (List.mem_reverse.mp member)
    rw [List.reverse_append, List.reverse_cons, List.append_assoc,
      List.takeWhile_append_of_pos digits]
    simp
  have reversed := read front id
  rw [same, read back other] at reversed
  exact (List.reverse_injective reversed).symm

/-- The last letter of the symbol of an exit or of an edge. -/
def lastLetter : Symbol → Char
  | .exit _ => 't'
  | .block _ _ .begin => 'n'
  | _ => 'd'

/-- The symbol of an exit or of an edge ends with its last letter. -/
theorem getLast?_append_ending {symbol : Symbol} (generated : symbol.isGenerated = true)
    (front : List Char) : (front ++ symbol.ending).getLast? = some symbol.lastLetter := by
  cases symbol with
  | plain | member | entry | inner => cases generated
  | exit owner => exact List.getLast?_append_of_ne_nil front nofun
  | block owner id edge =>
    have present : edge.letters ≠ [] := by cases edge <;> nofun
    have last : edge.letters.getLast? = some (block owner id edge).lastLetter := by
      cases edge <;> rfl
    have whole : front ++ (block owner id edge).ending =
        (front ++ ['_', 'B', 'l', 'o', 'c', 'k'] ++ Nat.toDigits 10 id ++ ['_']) ++
          edge.letters := by
      simp [ending]
    rw [whole, List.getLast?_append_of_ne_nil _ present, last]

/-- What follows the name of the function in the symbol of an exit or of an edge can be read from
the end of its text. -/
theorem ending_eq_of_append {symbol other : Symbol} (generated : symbol.isGenerated = true)
    (again : other.isGenerated = true) {front back : List Char}
    (same : front ++ symbol.ending = back ++ other.ending) : symbol.ending = other.ending := by
  have letters : symbol.lastLetter = other.lastLetter := by
    have last := getLast?_append_ending generated front
    rw [same, getLast?_append_ending again back] at last
    exact (Option.some.inj last).symm
  cases symbol with
  | plain | member | entry | inner => cases generated
  | exit owner =>
    cases other with
    | plain | member | entry | inner => cases again
    | exit second => rfl
    | block second number place => cases place <;> cases letters
  | block owner id edge =>
    cases other with
    | plain | member | entry | inner => cases again
    | exit second => cases edge <;> cases letters
    | block second number place =>
      obtain rfl : edge = place := by cases edge <;> cases place <;> first | rfl | cases letters
      have fronts : front ++ ['_', 'B', 'l', 'o', 'c'] ++ 'k' :: Nat.toDigits 10 id =
          back ++ ['_', 'B', 'l', 'o', 'c'] ++ 'k' :: Nat.toDigits 10 number := by
        have whole : front ++ ['_', 'B', 'l', 'o', 'c'] ++ 'k' :: Nat.toDigits 10 id ++
              '_' :: edge.letters =
            back ++ ['_', 'B', 'l', 'o', 'c'] ++ 'k' :: Nat.toDigits 10 number ++
              '_' :: edge.letters := by simpa [ending] using same
        exact List.append_cancel_right whole
      simp only [ending, digits_eq_of_append fronts]

/-- Exits and edges that are written alike are made for functions of one qualified name, and go on
alike after it. -/
theorem name_eq_of_text {frame twin : Frame} {symbol other : Symbol} (made : symbol.MadeFor frame)
    (alike : other.MadeFor twin) (generated : symbol.isGenerated = true)
    (again : other.isGenerated = true) (same : symbol.text = other.text) :
    frame.name = twin.name ∧ symbol.ending = other.ending := by
  have texts := congrArg String.toList same
  rw [toList_text made, toList_text alike] at texts
  have endings := ending_eq_of_append generated again texts
  rw [endings] at texts
  exact ⟨String.toList_injective (List.append_cancel_right texts), endings⟩

/-- Symbols of exits and edges of functions of one name are written alike only if the namespaces of
the functions are the same. -/
theorem space_eq_of_text {frame twin : Frame} {symbol other : Symbol} (made : symbol.MadeFor frame)
    (alike : other.MadeFor twin) (generated : symbol.isGenerated = true)
    (again : other.isGenerated = true) (named : frame.function = twin.function)
    (same : symbol.text = other.text) : frame.space = twin.space := by
  obtain ⟨names, -⟩ := name_eq_of_text made alike generated again same
  have letters := congrArg String.toList names
  simp only [Frame.name, named, String.toList_append] at letters
  exact String.toList_injective (List.append_cancel_right (List.append_cancel_right letters))

/-- A symbol made for a function begins with the name of its entry. -/
theorem entry_prefix {frame : Frame} {symbol : Symbol} (made : symbol.MadeFor frame) :
    (entry frame).text.toList <+: symbol.text.toList := by
  rw [toList_text made]
  exact List.prefix_append _ _

end Symbol

/-- The place that a statement jumps to or names is an exit or an edge. -/
theorem Statement.isGenerated_of_place? {statement : Statement} {symbol : Symbol}
    (placed : statement.place? = some symbol) : symbol.isGenerated = true := by
  rw [place?, Option.or_eq_some_iff] at placed
  obtain jumps | ⟨-, marks⟩ := placed
  · unfold jumpsTo? at jumps
    split at jumps
    · split at jumps
      · rename_i generated
        rw [← Option.some.inj jumps]
        exact (Bool.and_eq_true_iff.mp generated).2
      · cases jumps
    · cases jumps
  · unfold marks? at marks
    split at marks
    · split at marks
      · rename_i generated
        rwa [← Option.some.inj marks]
      · cases marks
    · cases marks

/-- The symbols of a block are made for its function. -/
theorem Symbol.IsOf.madeFor {frame : Frame} {block : Block} {symbol : Symbol}
    (made : symbol.IsOf frame block) : symbol.MadeFor frame := by
  obtain ⟨edge, rfl⟩ := made
  rfl

/-- The places that a construct writes in a function are made for the function. -/
theorem Flow.Writes.made_places {construct : Construct} {scope last : Scope}
    {code : List Statement} {frame : Frame} (rule : Writes construct scope last code)
    (framed : scope.frame? = some frame) {statement : Statement} (member : statement ∈ code)
    {symbol : Symbol} (placed : statement.place? = some symbol) : symbol.MadeFor frame := by
  have same : ∀ other, scope.frame? = some other → other = frame := by
    intro other found
    exact Option.some.inj (found.symm.trans framed)
  have opening (opens : construct.opens?.isSome) : symbol.MadeFor frame := by
    obtain ⟨kind, opened⟩ := Option.isSome_iff_exists.mp opens
    exact (place_of_opening rule framed opened member placed).madeFor
  have inner {name : String} {target : Symbol} (named : scope.labelSymbol? name = some target) :
      target.isGenerated = false := by
    rw [Scope.labelSymbol?_of_frame framed] at named
    rw [← Option.some.inj named]
    rfl
  have generated := Statement.isGenerated_of_place? placed
  cases rule with
  | function closed found =>
    have opened := Scope.function_of_frame framed
    rw [closed] at opened
    cases opened
  | @finishBlock _ other block outer innermost found =>
    obtain rfl := same other found
    exact (place_of_blockEnd member placed).madeFor
  | @finishFunction _ other bare found =>
    obtain rfl := same other found
    rcases List.mem_cons.mp member with rfl | member
    · rw [Statement.place?_label placed]
      rfl
    · rw [List.mem_singleton.mp member] at placed
      cases placed
  | group | conditional | looping | counted | labelled => exact opening rfl
  | @exit _ other found =>
    obtain rfl := same other found
    rw [List.mem_singleton.mp member] at placed
    rw [Statement.place?_jump placed]
    rfl
  | @leave _ other block found innermost =>
    obtain rfl := same other found
    rw [List.mem_singleton.mp member] at placed
    rw [Statement.place?_jump placed]
    rfl
  | label named =>
    rw [List.mem_singleton.mp member] at placed
    rw [Statement.place?_label placed, inner named] at generated
    cases generated
  | jump named =>
    rw [List.mem_singleton.mp member] at placed
    rw [Statement.place?_jump placed, inner named] at generated
    cases generated
  | call found =>
    rw [List.mem_singleton.mp member] at placed
    cases placed
  | declare found =>
    rw [List.mem_singleton.mp member] at placed
    cases placed

namespace Passage

variable {passage : Passage} {frame : Frame}

/-- A line that declares a namespace puts it in the place of the one before, and writes bare
statements. -/
theorem Holds.declared {name : String} (holds : passage.Holds)
    (said : passage.declares? = some name) :
    passage.after = { passage.before with declared := some name } ∧
      ∀ statement ∈ passage.written, statement.IsBare := by
  have effect : (passage.reading.effect (Compiler.textOf passage.raw) passage.before).answer =
      .ok .next ∧ _ := Reading.effect_of_declares said
  unfold Holds at holds
  rw [holds] at effect
  exact effect.2

/-- A line that says no construct changes the namespace at most, and writes bare statements. -/
theorem Holds.unsaid (holds : passage.Holds) (unsaid : passage.construct? = none) :
    passage.after =
        { passage.before with declared := passage.declares?.or passage.before.declared } ∧
      ∀ statement ∈ passage.written, statement.IsBare := by
  cases said : passage.declares? with
  | none => exact holds.still unsaid said
  | some name => exact holds.declared said

/-- After a line of a function that stays open, the function is one of the namespace that the line
declares, or else of the one before. -/
theorem Holds.frame_after (holds : passage.Holds) (framed : passage.before.frame? = some frame)
    (stays : passage.after.function.isSome) :
    passage.after.frame? = some ⟨passage.declares?.getD frame.space, frame.function⟩ := by
  cases said : passage.declares? with
  | none => exact (Inside.mk holds framed stays said).framed_after
  | some name =>
    have present : name ≠ "" := Reading.declares?_ne_empty said
    have named := (Scope.frame?_eq_some_iff.mp framed).2
    rw [(holds.declared said).1]
    refine Scope.frame?_eq_some_iff.mpr ⟨?_, named⟩
    exact Option.filter_eq_some_iff.mpr ⟨rfl, by simpa using present⟩

/-- The places of a line in a function are made for the function, under the namespace in force. -/
theorem Holds.made_places (holds : passage.Holds) (framed : passage.before.frame? = some frame) :
    ∀ symbol ∈ passage.places, symbol.MadeFor frame := by
  intro symbol member
  cases said : passage.construct? with
  | some construct =>
    obtain ⟨echo, code, rule, quiet, whole⟩ := holds.writes said
    rw [places_eq whole quiet] at member
    obtain ⟨statement, written, placed⟩ := List.mem_filterMap.mp member
    exact rule.made_places framed written placed
  | none =>
    have quiet : ∀ statement ∈ passage.written, statement.IsQuiet :=
      fun statement written => ((holds.unsaid said).2 statement written).isQuiet
    rw [places_eq (List.append_nil _).symm quiet] at member
    cases member

end Passage

/-- The namespace in force after some lines. -/
def spaceAfter (space : String) (passages : List Passage) : String :=
  passages.foldl (fun current passage => passage.declares?.getD current) space

/-- After lines of a function that stays open, the function is one of the namespace then in
force. -/
theorem Transcribed.frame_after {first last : Scope} {passages : List Passage} {space name : String}
    (lines : Transcribed first passages last) (framed : first.frame? = some ⟨space, name⟩)
    (stays : ∀ passage ∈ passages, passage.after.function.isSome) :
    last.frame? = some ⟨spaceAfter space passages, name⟩ := by
  induction lines generalizing space with
  | nil => exact framed
  | @cons passage passages last holds rest ih =>
    have next := holds.frame_after framed (stays passage List.mem_cons_self)
    exact ih next fun other member => stays other (List.mem_cons_of_mem passage member)

namespace Compiler

/-- The places of a function are named as its entry is while the namespace of the entry is in force.
A source that compiles writes the statements of its transcript, which goes up to the end of the
source or to the end marker. From the line that opens a function to the one that closes it, or to
the last line if there is none, every exit and every edge of a block that a line jumps to or names
is made for the function, but under the namespace in force before this line. If this is the
namespace of the entry, the name of the entry is the first part of the name of the place; if it is
another one, no exit or edge of the function under its entry has the name of the place. -/
theorem places_named_as_entry {compiler : Compiler Family} (reachable : compiler.Reachable)
    (lines : List Listing.Line) (source : List Read)
    (compiled : (compiler.compile lines source).failure = none) :
    let passages := transcript compiler.state.scope source
    statements (compiler.compile lines source).sink = statements lines ++ writtenBy passages ∧
    (source = passages.map (fun passage => .ok passage.raw) ∨
      ∃ raw rest, source = passages.map (fun passage => .ok passage.raw) ++ .ok raw :: rest ∧
        Reading.of (textOf raw) = .marker) ∧
    ∀ before opening body line after name,
      passages = before ++ opening :: (body ++ line :: after) →
      opening.construct? = some (.function name) →
      (∀ passage ∈ body, passage.after.function.isSome) →
      ∃ entry : Frame, entry.function = name ∧
        (∃ echo, (∀ statement ∈ echo, statement.IsQuiet) ∧
          opening.written = echo ++ [.label (.entry entry)]) ∧
        ∀ symbol ∈ line.places, symbol.isGenerated = true ∧
          symbol.MadeFor ⟨spaceAfter entry.space body, name⟩ ∧
          (spaceAfter entry.space body = entry.space →
            (Symbol.entry entry).text.toList <+: symbol.text.toList) ∧
          (spaceAfter entry.space body ≠ entry.space →
            ∀ other : Symbol, other.isGenerated = true → other.MadeFor entry →
              other.text ≠ symbol.text) := by
  have ready := reachable.ready.restart
  obtain ⟨written, read⟩ := statements_of_run ready source compiled
  obtain ⟨last, transcribed⟩ := transcribed_transcript compiler.state.scope source
  refine ⟨written, read, ?_⟩
  intro before opening body line after name shape opens stays
  rw [shape] at transcribed
  obtain ⟨start, -, tail⟩ := transcribed.split
  obtain ⟨holds, -, rest⟩ := tail.uncons
  obtain ⟨middle, inner, further⟩ := rest.split
  obtain ⟨holding, here, -⟩ := further.uncons
  obtain ⟨echo, code, rule, quiet, whole⟩ := holds.writes opens
  obtain ⟨space, -, framed, -, rfl⟩ := rule.enters
  have current : line.before.frame? = some ⟨spaceAfter space body, name⟩ := by
    rw [here]
    exact inner.frame_after framed stays
  refine ⟨⟨space, name⟩, rfl, ⟨echo, quiet, whole⟩, ?_⟩
  intro symbol member
  have made := holding.made_places current symbol member
  have generated : symbol.isGenerated = true := by
    obtain ⟨statement, -, placed⟩ := List.mem_filterMap.mp member
    exact Statement.isGenerated_of_place? placed
  refine ⟨generated, made, ?_, ?_⟩
  · intro same
    rw [same] at made
    exact Symbol.entry_prefix made
  · intro moved other again alike text
    exact moved (Symbol.space_eq_of_text made alike generated again rfl text.symm)

/-- A namespace that is declared inside a function parts the function from its entry: the end of its
block, which the jump before the declaration goes to, and its exit are named in the new namespace,
and no place made for the function under its entry has these names. -/
theorem places_named_as_entry_moved :
    let source : List Read := [.ok "namespace A", .ok "function F \x7b", .ok "if EAX = 1 \x7b",
      .ok "namespace B", .ok "\x7d", .ok "\x7d"]
    let passages := transcript (.initial { echoSource := false }) source
    let line (position : Nat) : Passage := passages.getD position ⟨"", .initial {}, [], .initial {}⟩
    (line 1).written = [.label (.entry ⟨"A", "F"⟩)] ∧
    (line 2).places = [.block ⟨"A", "F"⟩ 1 .finish] ∧
    (line 4).places = [.block ⟨"B", "F"⟩ 1 .finish] ∧ (line 5).places = [.exit ⟨"B", "F"⟩] ∧
    ∀ position ∈ [4, 5], ∀ symbol ∈ (line position).places, ∀ other : Symbol,
      other.isGenerated = true → other.MadeFor ⟨"A", "F"⟩ → other.text ≠ symbol.text := by
  intro source passages line
  have compiled : ((new { echoSource := false } Family.standard).compile ([] : List Listing.Line)
      source).failure = none := by decide +kernel
  have listed : passages = [line 0, line 1, line 2, line 3, line 4, line 5] := by decide +kernel
  have opened : (line 1).construct? = some (.function "F") ∧
      (line 1).written = [.label (.entry ⟨"A", "F"⟩)] := by decide +kernel
  have inside : (∀ passage ∈ [line 2, line 3, line 4], passage.after.function.isSome) ∧
      spaceAfter "A" [line 2, line 3] = "B" ∧ spaceAfter "A" [line 2, line 3, line 4] = "B" := by
    decide +kernel
  have places : (line 2).places = [.block ⟨"A", "F"⟩ 1 .finish] ∧
      (line 4).places = [.block ⟨"B", "F"⟩ 1 .finish] ∧ (line 5).places = [.exit ⟨"B", "F"⟩] := by
    decide +kernel
  obtain ⟨-, -, named⟩ := places_named_as_entry ⟨{ echoSource := false }, .refl⟩ [] source compiled
  -- Both lines come after the declaration, so one argument serves them.
  have moved (body : List Passage) (last : Passage) (after : List Passage)
      (shape : passages = [line 0] ++ line 1 :: (body ++ last :: after))
      (stays : ∀ passage ∈ body, passage.after.function.isSome)
      (elsewhere : spaceAfter "A" body = "B") (symbol : Symbol) (member : symbol ∈ last.places)
      (other : Symbol) (generated : other.isGenerated = true)
      (alike : other.MadeFor ⟨"A", "F"⟩) : other.text ≠ symbol.text := by
    obtain ⟨entry, -, ⟨echo, -, written⟩, apart⟩ :=
      named [line 0] (line 1) body last after "F" shape opened.1 stays
    have same : echo ++ [.label (.entry entry)] = [] ++ [.label (.entry ⟨"A", "F"⟩)] :=
      written.symm.trans opened.2
    obtain ⟨-, last⟩ := List.append_inj' same rfl
    cases last
    refine (apart symbol member).2.2.2 ?_ other generated alike
    rw [elsewhere]
    decide
  refine ⟨opened.2, places.1, places.2.1, places.2.2, ?_⟩
  intro position member
  rcases List.mem_cons.mp member with rfl | member
  · refine moved [line 2, line 3] (line 4) [line 5] listed (fun passage early => ?_) inside.2.1
    exact inside.1 passage (List.mem_append_left [line 4] early)
  · obtain rfl := List.mem_singleton.mp member
    exact moved [line 2, line 3, line 4] (line 5) [] listed inside.1 inside.2.2

end Compiler

end LineAsm
