import LineAsm.Proofs.Naming
/-!
# Symbols that a source defines

A label defines its symbol, and so does a variable (`Statement.defines?`). Only lines of control
flow define symbols, and what a line defines is told by the construct that it says: a name that only
the namespace qualifies (`Construct.outerName?`), a label that the open function qualifies as well
(`Construct.labelName?`), or the places of its block or function. So under one namespace the symbols
of a source are its names, the labels of its functions and the places of its functions and blocks
(`Transcribed.defines`), and they are written differently exactly if what follows the namespace is
(`Defines.nodup_texts_iff`).
-/

namespace LineAsm

/-- The symbol that a statement defines: the one of a label or of a variable. -/
def Statement.defines? : Statement → Option Symbol
  | .label symbol | .datum symbol _ => some symbol
  | _ => none

/-- A bare statement defines nothing. -/
theorem Statement.IsBare.defines? {statement : Statement} (bare : statement.IsBare) :
    statement.defines? = none := by
  cases statement with
  | label | datum => exact bare.elim
  | instruction | blank | raw | comment => rfl

/-- The symbols that some code defines, in order. -/
def defined (code : List Statement) : List Symbol := code.filterMap Statement.defines?

/-- The symbols defined by code that follows other code. -/
@[simp] theorem defined_append (first last : List Statement) :
    defined (first ++ last) = defined first ++ defined last := List.filterMap_append

namespace Symbol

/-- The symbol is qualified by a namespace. -/
def IsIn (space : String) : Symbol → Prop
  | .plain _ => False
  | .member owner _ => owner = space
  | .entry frame | .inner frame _ | .exit frame | .block frame _ _ => frame.space = space

/-- How a symbol is written after its namespace. -/
def localName : Symbol → String
  | .plain name | .member _ name => name
  | .entry frame => frame.function
  | .inner frame name => frame.function ++ "_" ++ name
  | .exit frame => frame.function ++ "_Exit"
  | .block frame id edge => frame.function ++ "_Block" ++ toString id ++ "_" ++ edge.name

/-- The name of a symbol that only the namespace qualifies. -/
def outerName? : Symbol → Option String
  | .member _ name => some name
  | .entry frame => some frame.function
  | _ => none

/-- The label of a function, after the name of the function. -/
def labelName? : Symbol → Option (String × String)
  | .inner frame name => some (frame.function, name)
  | _ => none

variable {space : String} {symbol other : Symbol}

/-- A symbol of a namespace is written as the namespace and what follows it. -/
theorem text_eq_of_isIn (isIn : symbol.IsIn space) :
    symbol.text = space ++ "_" ++ symbol.localName := by
  cases symbol with
  | plain => exact isIn.elim
  | member owner name =>
    obtain rfl : owner = space := isIn
    rfl
  | entry frame | inner frame | exit frame | block frame =>
    obtain rfl : frame.space = space := isIn
    simp only [text, localName, Frame.name, String.append_assoc]

/-- A symbol made for a function of a namespace is one of the namespace. -/
theorem MadeFor.isIn {frame : Frame} (made : symbol.MadeFor frame) : symbol.IsIn frame.space := by
  cases symbol with
  | plain | member | inner => exact made.elim
  | entry | exit | block => exact congrArg Frame.space made

/-- A symbol is made for one function only. -/
theorem MadeFor.unique {frame twin : Frame} (made : symbol.MadeFor frame)
    (also : symbol.MadeFor twin) : frame = twin := by
  cases symbol with
  | plain | member | inner => exact made.elim
  | entry | exit | block => exact made.symm.trans also

end Symbol

/-- How a label of a function is written after the namespace. -/
def joined (label : String × String) : String := label.1 ++ "_" ++ label.2

/-- Symbols of a namespace are names, labels of functions, and places of functions and blocks. -/
theorem Symbol.localNames_perm {space : String} {symbols : List Symbol}
    (isIn : ∀ symbol ∈ symbols, symbol.IsIn space) :
    (symbols.map localName).Perm (symbols.filterMap outerName? ++
      ((symbols.filterMap labelName?).map joined ++
        (symbols.filter isGenerated).map localName)) := by
  induction symbols with
  | nil => exact .nil
  | cons symbol symbols ih =>
    have rest := ih fun other member => isIn other (List.mem_cons_of_mem symbol member)
    cases symbol with
    | plain => exact (isIn _ List.mem_cons_self).elim
    | member | entry => exact rest.cons _
    | inner => exact (rest.cons _).trans List.perm_middle.symm
    | exit | block =>
      refine (rest.cons _).trans ?_
      rw [← List.append_assoc, ← List.append_assoc]
      exact List.perm_middle.symm

/-- What some code defines: symbols of one namespace, among them given names and given labels of
functions, and the places that the code names. -/
structure Defines (space : String) (names : List String) (labels : List (String × String))
    (code : List Statement) : Prop where
  /-- Every symbol is one of the namespace. -/
  isIn : ∀ symbol ∈ defined code, symbol.IsIn space
  /-- The names that only the namespace qualifies. -/
  names_eq : (defined code).filterMap Symbol.outerName? = names
  /-- The labels of functions. -/
  labels_eq : (defined code).filterMap Symbol.labelName? = labels
  /-- The places of functions and blocks. -/
  places_eq : (defined code).filter Symbol.isGenerated = marked code

namespace Defines

variable {space : String} {names others : List String} {labels more : List (String × String)}
  {code last : List Statement}

/-- Code without labels and variables defines nothing. -/
theorem nothing (bare : ∀ statement ∈ code, statement.defines? = none) :
    Defines space [] [] code := by
  have undefined : defined code = [] := List.filterMap_eq_nil_iff.mpr bare
  have unmarked : marked code = [] := by
    refine List.filterMap_eq_nil_iff.mpr fun statement member => ?_
    cases statement with
    | label symbol => cases bare _ member
    | _ => rfl
  constructor <;> rw [undefined]
  · nofun
  · rfl
  · rfl
  · rw [unmarked]
    rfl

/-- A label defines its symbol. -/
theorem label (symbol : Symbol) (isIn : symbol.IsIn space) :
    Defines space symbol.outerName?.toList symbol.labelName?.toList [.label symbol] := by
  refine ⟨List.forall_mem_singleton.mpr isIn, ?_, ?_, ?_⟩
  · cases symbol <;> rfl
  · cases symbol <;> rfl
  · cases symbol <;> rfl

/-- Code that follows other code defines its symbols after those of the other. -/
theorem append (defines : Defines space names labels code) (next : Defines space others more last) :
    Defines space (names ++ others) (labels ++ more) (code ++ last) where
  isIn := by
    intro symbol member
    rw [defined_append] at member
    rcases List.mem_append.mp member with front | back
    · exact defines.isIn symbol front
    · exact next.isIn symbol back
  names_eq := by
    rw [defined_append, List.filterMap_append, defines.names_eq, next.names_eq]
  labels_eq := by
    rw [defined_append, List.filterMap_append, defines.labels_eq, next.labels_eq]
  places_eq := by
    rw [defined_append, List.filter_append, marked_append, defines.places_eq, next.places_eq]

/-- The symbols that some code defines are written as the namespace and then a name, a joined label
or what a place has after the namespace. -/
theorem texts_perm (defines : Defines space names labels code) :
    ((defined code).map Symbol.text).Perm
      ((names ++ (labels.map joined ++ (marked code).map Symbol.localName)).map
        fun name => space ++ "_" ++ name) := by
  have texts : (defined code).map Symbol.text =
      ((defined code).map Symbol.localName).map fun name => space ++ "_" ++ name := by
    rw [List.map_map]
    refine List.map_congr_left fun symbol member => ?_
    exact Symbol.text_eq_of_isIn (defines.isIn symbol member)
  have parts := Symbol.localNames_perm defines.isIn
  rw [defines.names_eq, defines.labels_eq, defines.places_eq] at parts
  rw [texts]
  exact parts.map _

/-- The symbols that some code defines are written differently exactly if the names, the joined
labels and the places are all different where they follow the namespace. -/
theorem nodup_texts_iff (defines : Defines space names labels code) :
    ((defined code).map Symbol.text).Nodup ↔
      (names ++ (labels.map joined ++ (marked code).map Symbol.localName)).Nodup := by
  have injective : Function.Injective fun name : String => space ++ "_" ++ name := by
    intro name other same
    have letters := congrArg String.toList same
    simp only [String.toList_append] at letters
    exact String.toList_injective (List.append_cancel_left letters)
  rw [defines.texts_perm.nodup_iff, List.nodup_map_iff injective]

end Defines

namespace Construct

/-- The name that a construct gives in the namespace: to a function, to a variable, or to a place
outside functions. -/
def outerName? (function : Option String) : Construct → Option String
  | .function name | .declare name _ => some name
  | .label name => if function.isNone then some name else none
  | _ => none

/-- The label that a construct gives to a place in a function, after the name of the function. -/
def labelName? (function : Option String) : Construct → Option (String × String)
  | .label name | .labelled name => function.map fun owner => (owner, name)
  | _ => none

end Construct

namespace Flow

/-- A jump or another instruction defines nothing. -/
theorem defines_instruction {space : String} (mnemonic : Mnemonic) (operands : List Operand) :
    Defines space [] [] [.instruction mnemonic operands] :=
  .nothing fun statement member => by
    rw [List.mem_singleton.mp member]
    rfl

/-- The end of a block defines its place. -/
theorem defines_blockEnd (frame : Frame) (block : Block) :
    Defines frame.space [] [] (blockEnd frame block) := by
  have last : Defines frame.space [] [] [.label (.block frame block.id .finish)] :=
    .label (.block frame block.id .finish) rfl
  unfold blockEnd
  cases block.kind with
  | looping => exact (defines_instruction .jmp _).append last
  | counted => exact (defines_instruction .loop _).append last
  | plain | conditional | labelled => exact last

/-- What a construct writes defines the names that the construct gives. -/
theorem Writes.defines {construct : Construct} {scope last : Scope} {code : List Statement}
    {space : String} (rule : Writes construct scope last code)
    (under : ∀ name, scope.space? = some name → name = space) :
    Defines space (construct.outerName? scope.function).toList
      (construct.labelName? scope.function).toList code := by
  have framedBy {frame : Frame} (framed : scope.frame? = some frame) : frame.space = space :=
    under _ (Scope.frame?_eq_some_iff.mp framed).1
  cases rule with
  | @function _ name owner closed found => exact .label (.entry ⟨owner, name⟩) (under owner found)
  | finishBlock innermost framed =>
    rw [← framedBy framed]
    exact defines_blockEnd _ _
  | @finishFunction _ frame bare framed =>
    exact (Defines.label (.exit frame) (framedBy framed)).append (defines_instruction .ret [])
  | group => exact .nothing nofun
  | exit => exact defines_instruction .jmp _
  | leave => exact defines_instruction .jmp _
  | conditional => exact (defines_instruction .cmp _).append (defines_instruction _ _)
  | @looping _ frame left right condition operands framed =>
    have place := Defines.label (.block frame (scope.blocks.counter + 1) .begin) (framedBy framed)
    exact place.append ((defines_instruction .cmp _).append (defines_instruction _ _))
  | @counted _ frame count framed =>
    have place := Defines.label (.block frame (scope.blocks.counter + 1) .begin) (framedBy framed)
    unfold countLoad
    split
    · exact place
    · exact (defines_instruction .mov _).append place
  | @labelled _ frame name framed =>
    rw [(Scope.frame?_eq_some_iff.mp framed).2]
    exact .label (.inner frame name) (framedBy framed)
  | label named =>
    unfold Scope.labelSymbol? at named
    split at named
    · rename_i owner function found opened
      obtain rfl := Option.some.inj named
      rw [opened]
      exact .label (.inner ⟨owner, function⟩ _) (under owner found)
    · rename_i owner found closed
      obtain rfl := Option.some.inj named
      rw [closed]
      exact .label (.member owner _) (under owner found)
    · cases named
  | jump => exact defines_instruction .jmp _
  | call => exact defines_instruction .call _
  | declare found => exact ⟨List.forall_mem_singleton.mpr (under _ found), rfl, rfl, rfl⟩

end Flow

namespace Passage

variable {passage : Passage} {space : String}

/-- The name that a line gives in the namespace, if it gives one. -/
def outerName? (passage : Passage) : Option String :=
  passage.construct?.bind (Construct.outerName? passage.before.function)

/-- The label that a line gives to a place in a function, after the name of the function. -/
def labelName? (passage : Passage) : Option (String × String) :=
  passage.construct?.bind (Construct.labelName? passage.before.function)

/-- A line defines the names that it gives. -/
theorem Holds.defines (holds : passage.Holds)
    (under : ∀ name, passage.before.space? = some name → name = space) :
    Defines space passage.outerName?.toList passage.labelName?.toList passage.written := by
  unfold outerName? labelName?
  cases said : passage.construct? with
  | none =>
    exact .nothing fun statement member => ((holds.unsaid said).2 statement member).defines?
  | some construct =>
    obtain ⟨tokens, code, rule, whole⟩ := holds.writes_echoed said
    have echo : Defines space [] []
        (Reading.echoed passage.before.options (Compiler.textOf passage.raw) tokens) :=
      .nothing fun statement member => (Reading.echoed_isBare member).defines?
    rw [whole]
    exact echo.append (rule.defines under)

/-- Where every namespace is the same one, it stays in force. -/
theorem Holds.under (holds : passage.Holds)
    (under : ∀ name, passage.before.space? = some name → name = space)
    (single : ∀ name, passage.declares? = some name → name = space) :
    ∀ name, passage.after.space? = some name → name = space := by
  intro name found
  cases said : passage.construct? with
  | none =>
    rw [(holds.unsaid said).1] at found
    cases declared : passage.declares? with
    | none =>
      rw [declared] at found
      exact under name found
    | some other =>
      rw [declared] at found
      obtain rfl : other = name := Option.some.inj (Option.filter_eq_some_iff.mp found).1
      exact single other declared
  | some construct =>
    obtain ⟨echo, code, rule, -, -⟩ := holds.writes said
    rw [Scope.space?, rule.kept.1] at found
    exact under name found

end Passage

/-- What a partial function finds in a list is what it finds at the head and in the rest. -/
theorem filterMap_cons_eq {α β : Type} (find : α → Option β) (head : α) (rest : List α) :
    (head :: rest).filterMap find = (find head).toList ++ rest.filterMap find := by
  rw [List.filterMap_eq_flatMap_toList, List.filterMap_eq_flatMap_toList, List.flatMap_cons]

/-- Lines under one namespace define the names that they give. -/
theorem Transcribed.defines {first last : Scope} {passages : List Passage} {space : String}
    (lines : Transcribed first passages last)
    (under : ∀ name, first.space? = some name → name = space)
    (single : ∀ passage ∈ passages, ∀ name, passage.declares? = some name → name = space) :
    Defines space (passages.filterMap Passage.outerName?) (passages.filterMap Passage.labelName?)
      (writtenBy passages) := by
  induction lines with
  | nil => exact .nothing nofun
  | @cons passage passages last holds rest ih =>
    have next := ih (holds.under under (single passage List.mem_cons_self))
      fun other member => single other (List.mem_cons_of_mem passage member)
    have whole := (holds.defines under).append next
    rwa [← filterMap_cons_eq, ← filterMap_cons_eq] at whole

end LineAsm
