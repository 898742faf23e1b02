import LineAsm.Proofs.Definitions
/-!
# Symbols defined once

The blocks of each function are numbered, so if no two functions of a source have one name, no place
is named twice. Between two functions the places named are settled (`Settled`); in a function those
before it are settled, and its own code is pending (`Stage`). A line leads from one stage to the
next (`Stage.line`). The parts of a symbol are joined by underscores, which names may contain as
well, so two symbols with different parts can be written alike: a function with a label `Exit`
defines one text twice. Under one namespace the texts are all different exactly if the joined labels
and the places keep apart from each other and from the names (`Compiler.definitions_nodup_iff`), and
they do if no name contains an underscore and no label is `Exit` (`apart_of_plain`).
-/

namespace LineAsm

/-- The places that some code names are all different, and are made for functions of a namespace
with given names. -/
structure Settled (space : String) (names : List String) (code : List Statement) : Prop where
  /-- No place is named twice. -/
  once : (marked code).Nodup
  /-- Every place is made for a function with one of the names. -/
  owned : ∀ symbol ∈ marked code, ∃ name ∈ names, symbol.MadeFor ⟨space, name⟩

namespace Settled

variable {space name : String} {names older : List String} {code current : List Statement}

/-- Where more functions are named, the places are settled still. -/
theorem mono (settled : Settled space older code) (known : older ⊆ names) :
    Settled space names code where
  once := settled.once
  owned := by
    intro symbol member
    obtain ⟨name, listed, made⟩ := settled.owned symbol member
    exact ⟨name, known listed, made⟩

/-- Code that names no place may follow. -/
theorem apart (settled : Settled space names code)
    (apart : ∀ statement ∈ current, statement.IsApart) : Settled space names (code ++ current) := by
  have unmarked : marked current = [] :=
    List.filterMap_eq_nil_iff.mpr fun statement member => (apart statement member).2
  have same : marked (code ++ current) = marked code := by
    rw [marked_append, unmarked, List.append_nil]
  constructor
  · rw [same]
    exact settled.once
  · rw [same]
    exact settled.owned

/-- Code that names different places of one more function may follow. -/
theorem join (settled : Settled space older code) (once : (marked current).Nodup)
    (made : ∀ symbol ∈ marked current, symbol.MadeFor ⟨space, name⟩) (known : older ⊆ names)
    (mine : name ∈ names) (fresh : name ∉ older) : Settled space names (code ++ current) := by
  constructor
  · rw [marked_append]
    refine List.nodup_append'.mpr ⟨settled.once, once, fun symbol before after => ?_⟩
    obtain ⟨other, listed, owned⟩ := settled.owned symbol before
    obtain rfl : name = other := (Frame.mk.inj ((made symbol after).unique owned)).2
    exact fresh listed
  · intro symbol member
    rw [marked_append] at member
    rcases List.mem_append.mp member with before | after
    · exact (settled.mono known).owned symbol before
    · exact ⟨name, mine, made symbol after⟩

end Settled

namespace Pending

variable {frame : Frame} {stack : OpenBlocks} {code : List Statement}

/-- The places named up to a line of a function are made for the function. -/
theorem made (pending : Pending frame stack code) :
    ∀ symbol ∈ marked code, symbol.MadeFor frame := by
  intro symbol member
  obtain ⟨id, edge, rfl, -⟩ := pending.counted symbol member
  rfl

/-- The exit may be named where the function is closed. -/
theorem closed (pending : Pending frame stack code) :
    (marked (code ++ [.label (.exit frame), .instruction .ret []])).Nodup ∧
      ∀ symbol ∈ marked (code ++ [.label (.exit frame), .instruction .ret []]),
        symbol.MadeFor frame := by
  have whole : marked (code ++ [.label (.exit frame), .instruction .ret []]) =
      marked code ++ [.exit frame] := marked_append _ _
  rw [whole]
  refine ⟨List.Nodup.of_map _ pending.names_nodup, fun symbol member => ?_⟩
  rcases List.mem_append.mp member with edge | exit
  · exact pending.made symbol edge
  · rw [List.mem_singleton.mp exit]
    rfl

/-- A line after which the function is open still keeps what holds of the code before it, also where
it declares a namespace. -/
theorem follow {passage : Passage} (pending : Pending frame passage.before.blocks code)
    (holds : passage.Holds) (framed : passage.before.frame? = some frame)
    (stays : passage.after.function.isSome) (sound : passage.before.Sound) :
    Pending frame passage.after.blocks (code ++ passage.written) := by
  cases declared : passage.declares? with
  | none => exact (pending.line ⟨holds, framed, stays, declared⟩ sound).1
  | some name =>
    obtain ⟨kept, bare⟩ := holds.declared declared
    rw [kept]
    exact pending.allApart fun statement member => (bare statement member).isApart

end Pending

/-- Outside functions a label is one of the namespace. -/
theorem Scope.member_of_labelSymbol? {scope : Scope} {name : String} {symbol : Symbol}
    (closed : scope.function = none) (named : scope.labelSymbol? name = some symbol) :
    ∃ space, symbol = .member space name := by
  unfold labelSymbol? at named
  rw [closed] at named
  split at named
  · rename_i opened
    cases opened
  · exact ⟨_, (Option.some.inj named).symm⟩
  · cases named

namespace Flow.Writes

variable {construct : Construct} {scope last : Scope} {code : List Statement}

/-- Outside functions a construct opens a function or names no place. -/
theorem outside (rule : Writes construct scope last code) (closed : scope.function = none) :
    (∃ name, construct = .function name) ∨
      last.function = none ∧ ∀ statement ∈ code, statement.IsApart := by
  have unframed {frame : Frame} (framed : scope.frame? = some frame) : False := by
    have opened := (Scope.frame?_eq_some_iff.mp framed).2
    rw [closed] at opened
    cases opened
  cases rule with
  | @function _ name => exact .inl ⟨name, rfl⟩
  | finishBlock _ framed | finishFunction _ framed | group framed | exit framed | leave framed
  | conditional framed | looping framed | counted framed | labelled framed =>
    exact (unframed framed).elim
  | label named =>
    obtain ⟨space, rfl⟩ := Scope.member_of_labelSymbol? closed named
    exact .inr ⟨closed, List.forall_mem_singleton.mpr ⟨rfl, rfl⟩⟩
  | jump named =>
    obtain ⟨space, rfl⟩ := Scope.member_of_labelSymbol? closed named
    exact .inr ⟨closed, List.forall_mem_singleton.mpr ⟨rfl, rfl⟩⟩
  | call =>
    exact .inr ⟨closed, List.forall_mem_singleton.mpr (Statement.isApart_instruction .call _ rfl)⟩
  | declare => exact .inr ⟨closed, List.forall_mem_singleton.mpr ⟨rfl, rfl⟩⟩

/-- A function is closed with its exit and a return. -/
theorem closes {frame : Frame} (rule : Writes construct scope last code)
    (framed : scope.frame? = some frame) (ends : last.function = none) :
    code = [.label (.exit frame), .instruction .ret []] := by
  have opened := (Scope.frame?_eq_some_iff.mp framed).2
  cases rule with
  | function => cases ends
  | @finishFunction _ other bare found =>
    obtain rfl := Option.some.inj (found.symm.trans framed)
    rfl
  | _ =>
    rw [show scope.function = none from ends] at opened
    cases opened

end Flow.Writes

/-- A line that closes a function writes the exit of the function and a return. -/
theorem Passage.Holds.closes {passage : Passage} {frame : Frame} (holds : passage.Holds)
    (framed : passage.before.frame? = some frame) (ends : passage.after.function = none) :
    ∃ echo, (∀ statement ∈ echo, statement.IsQuiet) ∧
      passage.written = echo ++ [.label (.exit frame), .instruction .ret []] := by
  cases said : passage.construct? with
  | none =>
    have opened := (Scope.frame?_eq_some_iff.mp framed).2
    rw [(holds.unsaid said).1] at ends
    rw [show passage.before.function = none from ends] at opened
    cases opened
  | some construct =>
    obtain ⟨echo, code, rule, quiet, whole⟩ := holds.writes said
    obtain rfl := rule.closes framed ends
    exact ⟨echo, quiet, whole⟩

/-- With the line that closes a function, the places of the function are all different and made for
it. -/
theorem Pending.last {passage : Passage} {frame : Frame} {stack : OpenBlocks}
    {code : List Statement} (pending : Pending frame stack code) (holds : passage.Holds)
    (framed : passage.before.frame? = some frame) (ends : passage.after.function = none) :
    (marked (code ++ passage.written)).Nodup ∧
      ∀ symbol ∈ marked (code ++ passage.written), symbol.MadeFor frame := by
  obtain ⟨echo, quiet, whole⟩ := holds.closes framed ends
  have repeated := pending.allApart fun statement member => (quiet statement member).isApart
  rw [whole, ← List.append_assoc]
  exact repeated.closed

/-- How far the places of a source are settled before one of its lines: all of them where no
function is open, and those before the open function otherwise, the code of which is pending. -/
inductive Stage (space : String) (names : List String) (scope : Scope) : List Statement → Prop where
  /-- No function is open. -/
  | outside {code : List Statement} (closed : scope.function = none)
      (settled : Settled space names code) : Stage space names scope code
  /-- A function is open that has a name of its own. -/
  | inside {earlier current : List Statement} {older : List String} {name : String}
      (framed : scope.frame? = some ⟨space, name⟩) (settled : Settled space older earlier)
      (known : older ⊆ names) (mine : name ∈ names) (fresh : name ∉ older)
      (pending : Pending ⟨space, name⟩ scope.blocks current) :
      Stage space names scope (earlier ++ current)

/-- Outside functions a line leads to the next stage, if it opens no function with a name that has
been given. -/
theorem Settled.line {space : String} {names : List String} {code : List Statement}
    {passage : Passage} (settled : Settled space names code) (holds : passage.Holds)
    (closed : passage.before.function = none)
    (under : ∀ name, passage.before.space? = some name → name = space)
    (fresh : ∀ name, passage.outerName? = some name → name ∉ names) :
    Stage space (names ++ passage.outerName?.toList) passage.after (code ++ passage.written) := by
  have grows : names ⊆ names ++ passage.outerName?.toList := List.subset_append_left _ _
  have still (kept : passage.after.function = none)
      (apart : ∀ statement ∈ passage.written, statement.IsApart) :
      Stage space (names ++ passage.outerName?.toList) passage.after (code ++ passage.written) :=
    .outside kept ((settled.mono grows).apart apart)
  cases said : passage.construct? with
  | none =>
    obtain ⟨kept, bare⟩ := holds.unsaid said
    exact still (by rw [kept, closed]) fun statement member => (bare statement member).isApart
  | some construct =>
    obtain ⟨echo, written, rule, quiet, whole⟩ := holds.writes said
    have echoed : ∀ statement ∈ echo, statement.IsApart :=
      fun statement member => (quiet statement member).isApart
    obtain ⟨name, rfl⟩ | ⟨kept, apart⟩ := rule.outside closed
    · obtain ⟨owner, found, framed, empty, rfl⟩ := rule.enters
      obtain rfl := under owner found
      have given : passage.outerName? = some name := by
        rw [Passage.outerName?, said]
        rfl
      -- The blocks of the function are counted afresh, and it names no place yet.
      have entry : Pending ⟨owner, name⟩ passage.after.blocks passage.written := by
        rw [empty, whole]
        refine Pending.initial fun statement member => ?_
        rcases List.mem_append.mp member with repeated | entry
        · exact echoed statement repeated
        · rw [List.mem_singleton.mp entry]
          exact ⟨rfl, rfl⟩
      refine .inside framed settled grows ?_ (fresh name given) entry
      rw [given]
      exact List.mem_append_right names List.mem_cons_self
    · refine still kept fun statement member => ?_
      rw [whole] at member
      rcases List.mem_append.mp member with repeated | written
      · exact echoed statement repeated
      · exact apart statement written

namespace Stage

variable {space : String} {names : List String} {code : List Statement}

/-- At every stage the places are settled. -/
theorem settled {scope : Scope} (stage : Stage space names scope code) :
    Settled space names code := by
  cases stage with
  | outside closed settled => exact settled
  | inside framed settled known mine fresh pending =>
    exact settled.join pending.once pending.made known mine fresh

/-- A line leads to the next stage, if it declares no other namespace and opens no function with a
name that has been given. -/
theorem line {passage : Passage} (stage : Stage space names passage.before code)
    (holds : passage.Holds) (sound : passage.before.Sound)
    (under : ∀ name, passage.before.space? = some name → name = space)
    (single : ∀ name, passage.declares? = some name → name = space)
    (fresh : ∀ name, passage.outerName? = some name → name ∉ names) :
    Stage space (names ++ passage.outerName?.toList) passage.after (code ++ passage.written) := by
  cases stage with
  | outside closed settled => exact settled.line holds closed under fresh
  | @inside earlier current older name framed settled known mine unnamed pending =>
    have grows : names ⊆ names ++ passage.outerName?.toList := List.subset_append_left _ _
    have wider := List.Subset.trans known grows
    rw [List.append_assoc]
    cases stays : passage.after.function with
    | none =>
      obtain ⟨once, made⟩ := pending.last holds framed stays
      exact .outside stays (settled.join once made wider (grows mine) unnamed)
    | some function =>
      have opened : passage.after.function.isSome := Option.isSome_iff_exists.mpr ⟨function, stays⟩
      have next := holds.frame_after framed opened
      have same : passage.declares?.getD space = space := by
        cases declared : passage.declares? with
        | none => rfl
        | some other => exact single other declared
      rw [same] at next
      exact .inside next settled wider (grows mine) unnamed
        (pending.follow holds framed opened sound)

end Stage

/-- Lines lead from stage to stage, if no name is given twice. -/
theorem Transcribed.stage {first last : Scope} {passages : List Passage} {space : String}
    {names : List String} {code : List Statement} (lines : Transcribed first passages last)
    (stage : Stage space names first code) (sound : first.Sound)
    (under : ∀ name, first.space? = some name → name = space)
    (single : ∀ passage ∈ passages, ∀ name, passage.declares? = some name → name = space)
    (once : (names ++ passages.filterMap Passage.outerName?).Nodup) :
    Stage space (names ++ passages.filterMap Passage.outerName?) last
      (code ++ writtenBy passages) := by
  induction lines generalizing names code with
  | nil =>
    rw [writtenBy, List.flatMap_nil, List.append_nil, List.filterMap_nil, List.append_nil]
    exact stage
  | @cons passage passages last holds rest ih =>
    have declared := single passage List.mem_cons_self
    rw [filterMap_cons_eq, ← List.append_assoc] at once ⊢
    have fresh : ∀ name, passage.outerName? = some name → name ∉ names := by
      intro name given member
      have apart := (List.nodup_append'.mp (List.nodup_append'.mp once).1).2.2
      refine apart member ?_
      rw [given]
      exact List.mem_cons_self
    have next := stage.line holds sound under declared fresh
    have whole := ih next (holds.sound sound) (holds.under under declared)
      (fun other member => single other (List.mem_cons_of_mem passage member)) once
    rwa [List.append_assoc code] at whole

namespace Symbol

/-- Places of functions of one namespace that are written alike are the same. -/
theorem eq_of_made {space name twin : String} {symbol other : Symbol}
    (made : symbol.MadeFor ⟨space, name⟩) (alike : other.MadeFor ⟨space, twin⟩)
    (generated : symbol.isGenerated = true) (again : other.isGenerated = true)
    (same : symbol.text = other.text) : symbol = other := by
  obtain ⟨names, endings⟩ := name_eq_of_text made alike generated again same
  have letters := congrArg String.toList names
  simp only [Frame.name, String.toList_append] at letters
  obtain rfl : name = twin := String.toList_injective (List.append_cancel_left letters)
  exact eq_of_ending made alike endings

/-- After the namespace a place is written as a function, an underscore, and either `Exit` or more
with an underscore in it. -/
theorem underscored {symbol : Symbol} (generated : symbol.isGenerated = true) :
    ∃ front back, symbol.localName.toList = front ++ '_' :: back ∧
      (back = "Exit".toList ∨ '_' ∈ back) := by
  cases symbol with
  | plain | member | entry | inner => cases generated
  | exit frame =>
    refine ⟨frame.function.toList, "Exit".toList, ?_, .inl rfl⟩
    have letters : "_Exit".toList = '_' :: "Exit".toList := by decide
    rw [localName, String.toList_append, letters]
  | block frame id edge =>
    refine ⟨frame.function.toList,
      "Block".toList ++ (toString id).toList ++ '_' :: edge.name.toList, ?_, .inr (by simp)⟩
    have letters : "_Block".toList = '_' :: "Block".toList := by decide
    have underscore : "_".toList = ['_'] := by decide
    simp only [localName, String.toList_append, letters, underscore, List.append_assoc,
      List.cons_append, List.nil_append]

end Symbol

/-- The letters of a joined label. -/
theorem toList_joined (label : String × String) :
    (joined label).toList = label.1.toList ++ '_' :: label.2.toList := by
  have underscore : "_".toList = ['_'] := by decide
  rw [joined, String.toList_append, String.toList_append, underscore, List.append_assoc,
    List.singleton_append]

/-- Names and labels without underscores can be told apart when they are joined, and from the places
if no label is `Exit`. -/
theorem apart_of_plain {names : List String} {labels : List (String × String)}
    {places : List Symbol} (plain : ∀ name ∈ names, '_' ∉ name.toList)
    (short : ∀ label ∈ labels, '_' ∉ label.2.toList ∧ label.2 ≠ "Exit")
    (owned : ∀ label ∈ labels, label.1 ∈ names) (once : labels.Nodup)
    (generated : ∀ place ∈ places, place.isGenerated = true) :
    (labels.map joined).Nodup ∧ names.Disjoint (labels.map joined) ∧
      names.Disjoint (places.map Symbol.localName) ∧
      (labels.map joined).Disjoint (places.map Symbol.localName) := by
  -- A joined label has one underscore, so its parts are those on both sides of any underscore.
  have parts : ∀ label ∈ labels, ∀ front back, (joined label).toList = front ++ '_' :: back →
      label.1.toList = front ∧ label.2.toList = back := by
    intro label member front back whole
    rw [toList_joined] at whole
    obtain ⟨left, -, right⟩ := (List.append_cons_inj_of_notMem (plain label.1 (owned label member))
      (short label member).1).mp whole
    exact ⟨left, right⟩
  refine ⟨List.Nodup.map_on ?_ once, ?_, ?_, ?_⟩
  · intro label member other _ same
    obtain ⟨left, right⟩ := parts label member _ _ (by rw [same]; exact toList_joined other)
    exact Prod.ext (String.toList_injective left) (String.toList_injective right)
  · intro name listed member
    obtain ⟨label, -, rfl⟩ := List.mem_map.mp member
    refine plain _ listed ?_
    rw [toList_joined]
    exact List.mem_append_right _ List.mem_cons_self
  · intro name listed member
    obtain ⟨place, there, rfl⟩ := List.mem_map.mp member
    obtain ⟨front, back, letters, -⟩ := Symbol.underscored (generated place there)
    refine plain _ listed ?_
    rw [letters]
    exact List.mem_append_right _ List.mem_cons_self
  · intro name listed member
    obtain ⟨label, labelled, rfl⟩ := List.mem_map.mp listed
    obtain ⟨place, there, same⟩ := List.mem_map.mp member
    obtain ⟨front, back, letters, ends⟩ := Symbol.underscored (generated place there)
    rw [same] at letters
    have right := (parts label labelled front back letters).2
    obtain ⟨short, other⟩ := short label labelled
    rcases ends with exit | inside
    · exact other (String.toList_injective (right.trans exit))
    · rw [right] at short
      exact short inside

/-- A function that is open after a line was open before it or is named by the line. -/
theorem Passage.Holds.function_after {passage : Passage} (holds : passage.Holds) {function : String}
    (opened : passage.after.function = some function) :
    passage.before.function = some function ∨ passage.outerName? = some function := by
  unfold Passage.outerName?
  cases said : passage.construct? with
  | none =>
    rw [(holds.unsaid said).1] at opened
    exact .inl opened
  | some construct =>
    obtain ⟨echo, code, rule, -, -⟩ := holds.writes said
    generalize passage.before = before at rule ⊢
    generalize passage.after = after at rule opened
    cases rule with
    | function => exact .inr opened
    | finishFunction => cases opened
    | _ => exact .inl opened

/-- A label of a function belongs to the function open first or to one named by the lines. -/
theorem Transcribed.owner_of_label {first last : Scope} {passages : List Passage}
    (lines : Transcribed first passages last) {label : String × String}
    (member : label ∈ passages.filterMap Passage.labelName?) :
    first.function = some label.1 ∨ label.1 ∈ passages.filterMap Passage.outerName? := by
  induction lines with
  | nil => cases member
  | @cons passage passages last holds rest ih =>
    rw [filterMap_cons_eq] at member ⊢
    rcases List.mem_append.mp member with here | later
    · obtain ⟨construct, said, gives⟩ := Option.bind_eq_some_iff.mp (Option.mem_toList.mp here)
      cases construct with
      | label | labelled =>
        obtain ⟨owner, opened, rfl⟩ := Option.map_eq_some_iff.mp gives
        exact .inl opened
      | _ => cases gives
    · rcases ih later with opened | named
      · rcases holds.function_after opened with before | given
        · exact .inl before
        · exact .inr (List.mem_append_left _ (Option.mem_toList.mpr given))
      · exact .inr (List.mem_append_right _ named)

/-- Settled places of a namespace are written differently where they follow it. -/
theorem Settled.localNames_nodup {space : String} {names : List String} {code : List Statement}
    (settled : Settled space names code)
    (generated : ∀ place ∈ marked code, place.isGenerated = true) :
    ((marked code).map Symbol.localName).Nodup := by
  refine List.Nodup.map_on ?_ settled.once
  intro symbol member other also same
  obtain ⟨name, -, made⟩ := settled.owned symbol member
  obtain ⟨twin, -, alike⟩ := settled.owned other also
  refine Symbol.eq_of_made made alike (generated symbol member) (generated other also) ?_
  rw [Symbol.text_eq_of_isIn made.isIn, Symbol.text_eq_of_isIn alike.isIn, same]

namespace Compiler

/-- When the symbols of a source are defined once. A source that compiles writes the statements of
its transcript, which goes up to the end of the source or to the end marker. Let it declare one
namespace only, and let the names of its functions, variables and labels outside functions all be
different, and the labels of each function as well. Then every exit and every edge of a block is
made for a function named in the source, and the symbols that labels and variables define are those
of the names, of the labels, joined to the names of their functions, and of these places. They are
all different exactly if the joined labels are different from each other, from the names and from
the places, and the names are different from the places. So they are all different if there is no
underscore in a name or in a label, and no label of a function is `Exit`. -/
theorem definitions_nodup_iff (options : Options) (source : List Read) (space : String)
    (compiled : ((new options Family.standard).compile ([] : List Listing.Line) source).failure =
      none)
    (single : ∀ passage ∈ transcript (.initial options) source,
      ∀ name, passage.declares? = some name → name = space)
    (names_once : ((transcript (.initial options) source).filterMap Passage.outerName?).Nodup)
    (labels_once : ((transcript (.initial options) source).filterMap Passage.labelName?).Nodup) :
    let passages := transcript (.initial options) source
    let code :=
      statements ((new options Family.standard).compile ([] : List Listing.Line) source).sink
    let names := passages.filterMap Passage.outerName?
    let labels := passages.filterMap Passage.labelName?
    let places := (marked code).map Symbol.localName
    code = writtenBy passages ∧
    (source = passages.map (fun passage => .ok passage.raw) ∨
      ∃ raw rest, source = passages.map (fun passage => .ok passage.raw) ++ .ok raw :: rest ∧
        Reading.of (textOf raw) = .marker) ∧
    (∀ symbol ∈ marked code, symbol.isGenerated = true ∧
      ∃ name ∈ names, symbol.MadeFor ⟨space, name⟩) ∧
    ((defined code).map Symbol.text).Perm
      ((names ++ (labels.map joined ++ places)).map fun name => space ++ "_" ++ name) ∧
    (((defined code).map Symbol.text).Nodup ↔
      (labels.map joined).Nodup ∧ names.Disjoint (labels.map joined) ∧ names.Disjoint places ∧
        (labels.map joined).Disjoint places) ∧
    ((∀ name ∈ names, '_' ∉ name.toList) →
      (∀ label ∈ labels, '_' ∉ label.2.toList ∧ label.2 ≠ "Exit") →
        ((defined code).map Symbol.text).Nodup) := by
  intro passages code names labels places
  obtain ⟨written, read⟩ := statements_of_run (ready_new options).restart source compiled
  obtain ⟨last, lines⟩ := transcribed_transcript (.initial options) source
  have whole : code = writtenBy passages := written
  have under : ∀ name, (Scope.initial options).space? = some name → name = space := nofun
  have start : Stage space [] (.initial options) [] := .outside rfl ⟨List.nodup_nil, nofun⟩
  have settled : Settled space names code := by
    rw [whole]
    exact (lines.stage start (Scope.sound_initial options) under single names_once).settled
  have defines : Defines space names labels code := by
    rw [whole]
    exact lines.defines under single
  have generated : ∀ place ∈ marked code, place.isGenerated = true := by
    intro place member
    rw [← defines.places_eq] at member
    exact (List.mem_filter.mp member).2
  have differ : ((defined code).map Symbol.text).Nodup ↔
      (labels.map joined).Nodup ∧ names.Disjoint (labels.map joined) ∧ names.Disjoint places ∧
        (labels.map joined).Disjoint places := by
    rw [defines.nodup_texts_iff, List.nodup_append', List.nodup_append', List.disjoint_append_right]
    constructor
    · rintro ⟨-, ⟨once, -, apart⟩, outer, outermost⟩
      exact ⟨once, outer, outermost, apart⟩
    · rintro ⟨once, outer, outermost, apart⟩
      exact ⟨names_once, ⟨once, settled.localNames_nodup generated, apart⟩, outer, outermost⟩
  refine ⟨whole, read, fun symbol member => ⟨generated symbol member, settled.owned symbol member⟩,
    defines.texts_perm, differ, fun plain short => differ.mpr ?_⟩
  refine apart_of_plain plain short (fun label member => ?_) labels_once generated
  rcases lines.owner_of_label member with opened | named
  · cases opened
  · exact named

/-- Two functions with a block and a label each, a variable and a label outside them define eleven
symbols, all of them different. -/
theorem definitions_nodup_iff_plain :
    let source : List Read := [.ok "namespace K", .ok "var x", .ok "function A \x7b",
      .ok "while EAX < 5 \x7b", .ok "Loop:", .ok "\x7d", .ok "\x7d", .ok "function B \x7b",
      .ok "Loop: \x7b", .ok "\x7d", .ok "\x7d", .ok "Rest:"]
    let code := statements ((new { echoSource := false } Family.standard).compile
      ([] : List Listing.Line) source).sink
    (defined code).map Symbol.text = ["K_x", "K_A", "K_A_Block1_Begin", "K_A_Loop",
      "K_A_Block1_End", "K_A_Exit", "K_B", "K_B_Loop", "K_B_Block1_End", "K_B_Exit", "K_Rest"] ∧
    ((defined code).map Symbol.text).Nodup := by
  intro source code
  have facts : ((new { echoSource := false } Family.standard).compile ([] : List Listing.Line)
        source).failure = none ∧
      (∀ passage ∈ transcript (.initial { echoSource := false }) source,
        passage.declares? = none ∨ passage.declares? = some "K") ∧
      (transcript (.initial { echoSource := false }) source).filterMap Passage.outerName? =
        ["x", "A", "B", "Rest"] ∧
      (transcript (.initial { echoSource := false }) source).filterMap Passage.labelName? =
        [("A", "Loop"), ("B", "Loop")] ∧
      (defined code).map Symbol.text = ["K_x", "K_A", "K_A_Block1_Begin", "K_A_Loop",
        "K_A_Block1_End", "K_A_Exit", "K_B", "K_B_Loop", "K_B_Block1_End", "K_B_Exit",
        "K_Rest"] := by
    decide +kernel
  obtain ⟨compiled, declared, names, labels, texts⟩ := facts
  have single : ∀ passage ∈ transcript (.initial { echoSource := false }) source,
      ∀ name, passage.declares? = some name → name = "K" := by
    intro passage member name said
    rcases declared passage member with none | some
    · rw [none] at said
      cases said
    · exact (Option.some.inj (some.symm.trans said)).symm
  obtain ⟨-, -, -, -, -, differ⟩ := definitions_nodup_iff { echoSource := false } source "K"
    compiled single (by rw [names]; decide) (by rw [labels]; decide)
  rw [names, labels] at differ
  exact ⟨texts, differ (by decide) (by decide)⟩

/-- A label `Exit` of a function is written like the exit of the function: a source with one
namespace, one function and this one label defines a symbol twice. -/
theorem definitions_exit_twice :
    let source : List Read := [.ok "namespace K", .ok "function F \x7b", .ok "Exit:", .ok "\x7d"]
    let passages := transcript (.initial { echoSource := false }) source
    let compiled := (new { echoSource := false } Family.standard).compile ([] : List Listing.Line)
      source
    compiled.failure = none ∧ passages.filterMap Passage.declares? = ["K"] ∧
    passages.filterMap Passage.outerName? = ["F"] ∧
    passages.filterMap Passage.labelName? = [("F", "Exit")] ∧
    (defined (statements compiled.sink)).map Symbol.text = ["K_F", "K_F_Exit", "K_F_Exit"] ∧
    ¬ ((defined (statements compiled.sink)).map Symbol.text).Nodup := by
  decide +kernel

end Compiler

end LineAsm
