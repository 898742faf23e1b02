import LineAsm.Dialect.Family
import LineAsm.Sink
import LineAsm.Source
/-!
# Compiling a source

A compiler holds a dispatch table, the state that lines leave for lines after them, and the
listing of the line at hand. Compiling reads one line after the other: a blank line gives a
line of indentation, the end marker stops the reading, and every other line is dispatched,
repeated as a comment if that is wanted, and written by its owner. The lines of the listing go
to the sink when the whole line has succeeded. The first failure ends the call; the compiler
can be used again, and goes on with the state the failed line left.
-/

namespace LineAsm

/-- Whether reading goes on after a line. -/
inductive Progress where
  /-- The next line is read. -/
  | next
  /-- The line was the end marker. -/
  | stop
deriving DecidableEq, Repr

/-- A dispatch table, the state left by the lines before, and the listing of the line at hand. -/
structure Compiler (ε : Type) extends Draft where
  /-- The emitters that lines are dispatched to. -/
  table : Table ε

/-- What one call of a compiler leaves. -/
structure Compiler.Outcome (ε σ : Type) where
  /-- The failure that ended the call, if one did. -/
  failure : Option LocatedError
  /-- The compiler after the call. -/
  compiler : Compiler ε
  /-- The sink after the call. -/
  sink : σ

/-- Hand lines to a sink, up to the first that it refuses. -/
def Sink.writeAll {σ : Type} [Sink σ] (sink : σ) : List Listing.Line → Option String × σ
  | [] => (none, sink)
  | line :: rest =>
    match Sink.write sink line with
    | (none, sink) => writeAll sink rest
    | (some words, sink) => (some words, sink)

namespace Compiler

variable {ε σ : Type} [Emitter ε] [Sink σ]

/-- The line that ends a source before its end. -/
def endMarker : String := "//END"

/-- A compiler before its first line. -/
def new (options : Options) (table : Table ε) : Compiler ε :=
  { state := .initial options, table }

/-- Take over the indentation of a line. -/
def indentAs (text : String) : Emission Unit := fun draft =>
  let indent := Text.indentation text
  .ok () ⟨{ draft.state with indent }, draft.listing.setIndent indent⟩

/-- Repeat a line of source as a comment, if that is wanted and the line is no comment. -/
def echo (text : String) (tokens : List Token) : Emission Unit := do
  if (← Emission.look State.options).echoSource &&
      !(tokens.head?.any fun token => token.kind == .comment) then
    Emission.write (.comment (Text.trim text))

/-- Write the code of one line of source. -/
def line (table : Table ε) (text : String) : Emission Progress := do
  if Text.allBlank text then
    Emission.write .blank
    return .next
  else if Text.trim text == endMarker then return .stop
  else
    indentAs text
    match table.parse text with
    | .error cause => Emission.fail (.dialect cause)
    | .ok dispatch =>
      echo text dispatch.tokens
      Emitter.emit dispatch.owner dispatch.tokens
      return .next

/-- The number of the line at hand grows by one. -/
def advance (compiler : Compiler ε) : Compiler ε :=
  { compiler with state := { compiler.state with line := compiler.state.line + 1 } }

/-- Compile what was read from one line. Whatever happens, no line stays in the listing. -/
def step (compiler : Compiler ε) (sink : σ) (read : Read) :
    Except LocatedError Progress × Compiler ε × σ :=
  match read with
  | .error words =>
    (.error ⟨.io words, compiler.state.line, none⟩,
      { compiler with listing := compiler.listing.discard }, sink)
  | .ok raw =>
    let text := String.ofList (Source.dropReturn '\r' raw.toList)
    match line compiler.table text compiler.toDraft with
    | .error cause draft =>
      (.error ⟨cause, draft.state.line, some text⟩,
        { compiler with toDraft := { draft with listing := draft.listing.discard } }, sink)
    | .ok progress draft =>
      let after := { compiler with toDraft := { draft with listing := draft.listing.discard } }
      match Sink.writeAll sink draft.listing.lines with
      | (none, sink) => (.ok progress, after.advance, sink)
      | (some words, sink) => (.error ⟨.io words, draft.state.line, some text⟩, after, sink)

/-- Compile line after line, to the end of the source, the end marker or the first failure. -/
def run (compiler : Compiler ε) (sink : σ) : List Read → Outcome ε σ
  | [] => ⟨none, compiler, sink⟩
  | read :: rest =>
    match compiler.step sink read with
    | (.ok .next, compiler, sink) => compiler.run sink rest
    | (.ok .stop, compiler, sink) => ⟨none, compiler, sink⟩
    | (.error failure, compiler, sink) => ⟨some failure, compiler, sink⟩

/-- Compile a source. Its lines are counted from one; all else goes on from the call before. -/
def compile (compiler : Compiler ε) (sink : σ) (source : List Read) : Outcome ε σ :=
  run { compiler with state := { compiler.state with line := 1 } } sink source

end Compiler

/-- The assembly of a text, by the standard table. -/
def compileText (text : String) (options : Options) : Except LocatedError String :=
  let outcome := (Compiler.new options Family.standard).compile "" (Source.ofText text)
  match outcome.failure with
  | some failure => .error failure
  | none => .ok outcome.sink

end LineAsm
