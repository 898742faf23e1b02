import LineAsm.Emission
import LineAsm.Pattern.Coverage
/-!
# Dispatch tables

An emitter is a family of constructs: a name, the patterns of its lines, and the code it writes
for one. A table lists emitters in order of priority. Each token of a line belongs to the first
emitter of the table that recognises the line as ending there; the owner of the last token
writes the line. A pattern covered by one of an earlier emitter never decides anything: it is
shadowed.
-/

namespace LineAsm

/-- A family of constructs of the dialect. -/
class Emitter (ε : Type) where
  /-- The name of the family. -/
  name : ε → String
  /-- The lines of the family. -/
  patterns : ε → List Pattern
  /-- Whether a line could end at one of its positions. By default, whether a pattern of the
  family ends there. -/
  recognizes (emitter : ε) (line : List Token) (position : Nat) : Bool :=
    (patterns emitter).any fun pattern => pattern.endsAt line position
  /-- The code of a line. -/
  emit : ε → List Token → Emission Unit

/-- A token and the emitter that it belongs to. -/
structure Claim (ε : Type) where
  /-- The token. -/
  token : Token
  /-- The first emitter that recognises the line as ending with it. -/
  owner : Option ε

/-- A line with the owners of its tokens. -/
structure Dispatch (ε : Type) where
  /-- The tokens in order, with their owners. -/
  claims : List (Claim ε)
  /-- The owner of the last token. -/
  owner : ε

/-- The tokens of a dispatched line. -/
def Dispatch.tokens {ε : Type} (dispatch : Dispatch ε) : List Token :=
  dispatch.claims.map Claim.token

/-- A pattern that never decides anything, because an earlier emitter covers it. -/
structure Shadowing where
  /-- The emitter that covers the pattern. -/
  earlier : String
  /-- The emitter that has the pattern. -/
  later : String
  /-- The position of the pattern among those of its emitter. -/
  pattern : Nat
deriving DecidableEq, Repr

/-- The wording of a shadowed pattern. -/
def Shadowing.message (shadowing : Shadowing) : String :=
  "pattern " ++ toString shadowing.pattern ++ " of " ++ shadowing.later ++ " is shadowed by " ++
    shadowing.earlier

/-- Emitters in order of priority. -/
abbrev Table (ε : Type) := List ε

namespace Table

variable {ε : Type} [Emitter ε]

/-- The names of the emitters, in order. -/
def names (table : Table ε) : List String := table.map Emitter.name

/-- The first emitter that recognises a line as ending at a position. -/
def owner? (table : Table ε) (line : List Token) (position : Nat) : Option ε :=
  table.find? fun emitter => Emitter.recognizes emitter line position

/-- The tokens of a line with their owners. -/
def claims (table : Table ε) (line : List Token) : List (Claim ε) :=
  line.zipIdx.map fun (token, position) => ⟨token, table.owner? line position⟩

/-- The line belongs to the owner of its last token. -/
def trailing (claims : List (Claim ε)) : Except DialectError (Dispatch ε) :=
  match claims.getLast? with
  | none => .error .empty
  | some ⟨token, none⟩ => .error (.unrecognized token.value)
  | some ⟨_, some owner⟩ => .ok ⟨claims, owner⟩

/-- A line of source with the owners of its tokens. -/
def parse (table : Table ε) (line : String) : Except DialectError (Dispatch ε) :=
  match Token.ofLine line with
  | .error cause => .error (.malformed cause)
  | .ok tokens => trailing (table.claims tokens)

/-- The first emitter with a pattern that covers a given one. -/
def covering? (table : Table ε) (pattern : Pattern) : Option ε :=
  table.find? fun emitter => (Emitter.patterns emitter).any fun other => other.covers pattern

/-- The patterns covered by emitters before their own, in order. -/
def shadowings (table : Table ε) : List Shadowing :=
  table.zipIdx.flatMap fun (later, position) =>
    (Emitter.patterns later).zipIdx.filterMap fun (pattern, index) =>
      (covering? (table.take position) pattern).map fun earlier =>
        ⟨Emitter.name earlier, Emitter.name later, index⟩

end Table

end LineAsm
