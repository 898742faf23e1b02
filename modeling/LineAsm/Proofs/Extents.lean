import LineAsm.Proofs.LongestMatch
/-!
# Tokens in their line

Nothing of a line is lost in its tokens. Either they are one comment or literal, which says what
stands after its slashes (`Lexer.Reads.remark`), or none of them is one. Then they stand in the
line one behind the other, each with its text at its column, and only blanks are between them and
around them, but for a remark at the end of the line (`Token.Placed`, `Lexer.Reads.placed`).
-/

namespace LineAsm

namespace Token

/-- Tokens stand in the rest of a line that begins at a column: each behind blanks and with its
text at its own column. Behind the last one there are blanks and then nothing or a remark. -/
inductive Placed : Nat → List Token → List Char → Prop where
  /-- No token is left. -/
  | done {column : Nat} {blanks remark : List Char} (blank : ∀ c ∈ blanks, Text.isBlank c = true)
      (ends : remark = [] ∨ ['/', '/'] <+: remark) : Placed column [] (blanks ++ remark)
  /-- One more token stands in front. -/
  | next {column : Nat} {blanks rest : List Char} {token : Token} {tokens : List Token}
      (blank : ∀ c ∈ blanks, Text.isBlank c = true)
      (begins : token.column = column + Text.byteCount blanks)
      (further : Placed (token.column + Text.byteCount token.value.toList) tokens rest) :
      Placed column (token :: tokens) (blanks ++ token.value.toList ++ rest)

namespace Placed

variable {column : Nat} {tokens : List Token} {cs : List Char}

/-- A blank may stand in front. -/
theorem blank {c : Char} (white : Text.isBlank c = true)
    (placed : Placed (column + c.utf8Size) tokens cs) : Placed column tokens (c :: cs) := by
  have whites {blanks : List Char} (blank : ∀ c ∈ blanks, Text.isBlank c = true) :
      ∀ d ∈ c :: blanks, Text.isBlank d = true := List.forall_mem_cons.mpr ⟨white, blank⟩
  cases placed with
  | done blank ends => exact .done (whites blank) ends
  | next blank begins further =>
    refine .next (whites blank) ?_ further
    rw [begins, Text.byteCount, Nat.add_assoc]

/-- Every token stands at the column where the rest of the line begins or behind it. -/
theorem le_column (placed : Placed column tokens cs) : ∀ token ∈ tokens, column ≤ token.column := by
  induction placed with
  | done => nofun
  | next blank begins further ih =>
    refine List.forall_mem_cons.mpr ⟨?_, fun other member => ?_⟩
    · omega
    · have behind := ih other member
      omega

/-- No token begins before the one in front of it ends. -/
theorem apart (placed : Placed column tokens cs) : tokens.Pairwise fun left right =>
    left.column + Text.byteCount left.value.toList ≤ right.column := by
  induction placed with
  | done => exact .nil
  | next blank begins further ih => exact .cons further.le_column ih

/-- Every token has its text at its column. -/
theorem exists_around (placed : Placed column tokens cs) : ∀ token ∈ tokens,
    ∃ before after, cs = before ++ token.value.toList ++ after ∧
      token.column = column + Text.byteCount before := by
  induction placed with
  | done => nofun
  | @next column blanks rest token tokens blank begins further ih =>
    refine List.forall_mem_cons.mpr ⟨⟨blanks, rest, rfl, begins⟩, fun other member => ?_⟩
    obtain ⟨before, after, rfl, column_eq⟩ := ih other member
    refine ⟨blanks ++ token.value.toList ++ before, after, by simp only [List.append_assoc], ?_⟩
    rw [column_eq, begins, Text.byteCount_append, Text.byteCount_append]
    omega

end Placed

/-- The kinds of remarks, each with the characters that such a remark begins with. -/
def markers : List (Kind × List Char) := [(.comment, ['/', '/']), (.literal, ['/', '/', '!'])]

/-- The tokens of a line that are no remarks are parts of it, one behind the other, and all that
they leave out is blank or a remark at the end. -/
structure Cover (tokens : List Token) (line : String) : Prop where
  /-- No token is a comment or a literal. -/
  kept : ∀ token ∈ tokens, token.kind.isRemark = false
  /-- The columns increase. -/
  increasing : tokens.Pairwise fun left right => left.column < right.column
  /-- No token begins before the one in front of it ends. -/
  apart : tokens.Pairwise fun left right =>
    left.column + (Text.encode left.value).length ≤ right.column
  /-- The bytes of every token are those of the line from its column on. -/
  bytes : ∀ token ∈ tokens, Text.encode token.value <+: (Text.encode line).drop token.column
  /-- Only blanks stand before and between the tokens, and blanks and a remark behind them. -/
  placed : Placed 0 tokens line.toList

end Token

namespace Lexer

variable {column : Nat} {started : Bool} {cs : List Char} {tokens : List Token}

/-- A token that is read stands in front of those that are read behind it. -/
theorem exists_of_map_cons {token : Token} {result : Except Nat (List Token)}
    (read : result.map (fun others => token :: others) = .ok tokens) :
    ∃ others, result = .ok others ∧ tokens = token :: others := by
  cases result with
  | error column => cases read
  | ok others =>
    cases read
    exact ⟨others, rfl, rfl⟩

/-- Behind a token no token is a remark. -/
theorem Reads.kept {result : Except Nat (List Token)} (reads : Reads column started cs result)
    (behind : started = true) (read : result = .ok tokens) :
    ∀ token ∈ tokens, token.kind.isRemark = false := by
  induction reads generalizing tokens with
  | nil =>
    cases read
    nofun
  | blank white further ih => exact ih behind read
  | stray => cases read
  | stop =>
    cases read
    nofun
  | token longest going further ih =>
    obtain ⟨others, rest_read, rfl⟩ := exists_of_map_cons read
    rw [behind, Bool.and_true] at going
    exact List.forall_mem_cons.mpr ⟨going, ih rfl rest_read⟩

/-- A remark begins with two slashes, and with an exclamation mark behind them if it is a literal.
Its token says what follows. -/
theorem exists_marker {kind : Token.Kind} {said : String} {lexeme : List Char}
    (classed : Lexeme.Class kind said lexeme) (remark : kind.isRemark = true) :
    ∃ marker text, (kind, marker) ∈ Token.markers ∧ (kind = .comment → text.head? ≠ some '!') ∧
      lexeme = marker ++ text ∧ said = Text.trim (.ofList text) := by
  cases classed with
  | @literal text => exact ⟨['/', '/', '!'], text, by decide, nofun, rfl, rfl⟩
  | @comment text unbroken unmarked =>
    exact ⟨['/', '/'], text, by decide, fun _ => unmarked, rfl, rfl⟩
  | memory | text | hexadecimal | decimal | pair | mark => cases remark
  | @word first parts start only =>
    rw [Lexeme.isRemark_wordKind] at remark
    cases remark

/-- Every marker of a remark begins with two slashes. -/
theorem slashes_of_mem_markers : ∀ marker ∈ Token.markers, ['/', '/'] <+: marker.2 := by decide

/-- Tokens of which none is a remark stand in their line. -/
theorem Reads.placed {result : Except Nat (List Token)} (reads : Reads column started cs result)
    (read : result = .ok tokens) (kept : ∀ token ∈ tokens, token.kind.isRemark = false) :
    Token.Placed column tokens cs := by
  induction reads generalizing tokens with
  | nil =>
    cases read
    exact @Token.Placed.done _ [] [] nofun (.inl rfl)
  | blank white further ih => exact (ih read kept).blank white
  | stray => cases read
  | @stop column kind said lexeme rest longest remark =>
    cases read
    obtain ⟨marker, text, listed, -, rfl, -⟩ := exists_marker longest.classed remark
    have slashes : ['/', '/'] <+: marker ++ text ++ rest := by
      refine (slashes_of_mem_markers _ listed).trans ?_
      exact ⟨text ++ rest, (List.append_assoc marker text rest).symm⟩
    exact @Token.Placed.done _ [] _ nofun (.inr slashes)
  | @token column started kind said lexeme rest result longest going further ih =>
    obtain ⟨others, rest_read, rfl⟩ := exists_of_map_cons read
    obtain ⟨first, others_kept⟩ := List.forall_mem_cons.mp kept
    have letters : said.toList = lexeme := by
      rw [longest.classed.said_eq, value_of_kept first, String.toList_ofList]
    have behind : Token.Placed (column + Text.byteCount said.toList) others rest := by
      rw [letters]
      exact ih rest_read others_kept
    have next := @Token.Placed.next column [] rest ⟨kind, said, column⟩ others nofun rfl behind
    rwa [List.nil_append, letters] at next

/-- A remark among the tokens of a line is the only one. It begins with the first character that is
not blank and says what follows its slashes. -/
theorem Reads.remark {result : Except Nat (List Token)} (reads : Reads column started cs result)
    (read : result = .ok tokens) (unbroken : '\n' ∉ cs) {token : Token} (member : token ∈ tokens)
    (remark : token.kind.isRemark = true) :
    ∃ kind marker blanks text, (kind, marker) ∈ Token.markers ∧
      (kind = .comment → text.head? ≠ some '!') ∧ (∀ c ∈ blanks, Text.isBlank c = true) ∧
      cs = blanks ++ marker ++ text ∧
      tokens = [⟨kind, Text.trim (.ofList text), column + Text.byteCount blanks⟩] := by
  induction reads generalizing tokens with
  | nil =>
    cases read
    cases member
  | @blank column started c rest result white further ih =>
    obtain ⟨kind, marker, blanks, text, listed, unmarked, blank, rfl, rfl⟩ :=
      ih read (fun member => unbroken (List.mem_cons_of_mem c member)) member
    refine ⟨kind, marker, c :: blanks, text, listed, unmarked,
      List.forall_mem_cons.mpr ⟨white, blank⟩, rfl, ?_⟩
    rw [Text.byteCount, Nat.add_assoc]
  | stray => cases read
  | stop =>
    cases read
    cases member
  | @token column started kind said lexeme rest result longest going further ih =>
    obtain ⟨others, rest_read, rfl⟩ := exists_of_map_cons read
    rcases List.mem_cons.mp member with rfl | behind
    · obtain rfl := longest.rest_eq_nil remark unbroken
      obtain ⟨marker, text, listed, unmarked, rfl, rfl⟩ := exists_marker longest.classed remark
      have nothing := further.eq_scan List.not_mem_nil
      rw [rest_read, scan] at nothing
      cases nothing
      exact ⟨kind, marker, [], text, listed, unmarked, List.forall_mem_nil _, List.append_nil _,
        rfl⟩
    · rw [further.kept rfl rest_read token behind] at remark
      cases remark

/-- A line that is read as nothing is blank. -/
theorem Reads.blank_of_nil {result : Except Nat (List Token)}
    (reads : Reads column started cs result) (front : started = false) (read : result = .ok []) :
    ∀ c ∈ cs, Text.isBlank c = true := by
  induction reads with
  | nil => nofun
  | blank white further ih => exact List.forall_mem_cons.mpr ⟨white, ih front read⟩
  | stray => cases read
  | stop => cases front
  | token longest going further ih =>
    obtain ⟨others, -, shape⟩ := exists_of_map_cons read
    cases shape

end Lexer

namespace Token

variable {line : String} {tokens : List Token}

/-- The tokens of a line are read by the rule of longest match. -/
theorem reads_of_ofLine (unbroken : '\n' ∉ line.toList) (read : ofLine line = .ok tokens) :
    Lexer.Reads 0 false line.toList (.ok tokens) := by
  have same : Lexer.scan 0 false line.toList = .ok tokens := read
  have reads : Lexer.Reads 0 false line.toList
      ((Lexer.scan 0 false line.toList).mapError LexError.column) := Lexer.reads_scan unbroken
  rwa [same] at reads

/-- A line has no tokens exactly if it is blank. -/
theorem eq_nil_iff_of_ofLine (unbroken : '\n' ∉ line.toList) (read : ofLine line = .ok tokens) :
    tokens = [] ↔ Text.allBlank line = true := by
  rw [Text.allBlank, List.all_eq_true]
  constructor
  · rintro rfl
    exact (reads_of_ofLine unbroken read).blank_of_nil rfl rfl
  · intro blank
    have nothing := Lexer.scan_blanks blank 0 false
    exact Except.ok.inj (read.symm.trans nothing)

/-- The texts of tokens that stand in a line are parts of its bytes. -/
theorem Placed.bytes (placed : Placed 0 tokens line.toList) : ∀ token ∈ tokens,
    Text.encode token.value <+: (Text.encode line).drop token.column := by
  intro token member
  obtain ⟨before, after, whole, begins⟩ := placed.exists_around token member
  have front : (before.flatMap String.utf8EncodeChar).length = token.column := by
    rw [begins, Nat.zero_add, ← String.toList_ofList (l := before), ← Text.length_encode,
      Text.encode, String.toList_ofList]
  have bytes : Text.encode line = before.flatMap String.utf8EncodeChar ++
      (Text.encode token.value ++ after.flatMap String.utf8EncodeChar) := by
    rw [Text.encode, whole, List.flatMap_append, List.flatMap_append, List.append_assoc,
      Text.encode]
  rw [bytes, ← front, List.drop_left]
  exact List.prefix_append _ _

/-- Tokens of a line of which none is a remark cover it. -/
theorem cover_of_ofLine (unbroken : '\n' ∉ line.toList) (read : ofLine line = .ok tokens)
    (kept : ∀ token ∈ tokens, token.kind.isRemark = false) : Cover tokens line := by
  have placed := (reads_of_ofLine unbroken read).placed rfl kept
  have apart : tokens.Pairwise fun left right =>
      left.column + (Text.encode left.value).length ≤ right.column := by
    simpa only [Text.length_encode] using placed.apart
  refine ⟨kept, ?_, apart, placed.bytes, placed⟩
  refine apart.imp_of_mem fun {left right} member _ before => ?_
  have present := Lexer.value_ne_empty_of_scan read left member (kept left member)
  have positive : 0 < (Text.encode left.value).length := by
    rw [Text.length_encode]
    cases letters : left.value.toList with
    | nil => exact absurd (String.toList_eq_nil_iff.mp letters) present
    | cons c rest =>
      have size := Char.utf8Size_pos c
      rw [Text.byteCount]
      omega
  omega

/-- Nothing of a line is lost in its tokens. There are none exactly if the line is blank. Else there
is one comment or literal, which begins with the first character that is not blank and says what
stands behind its slashes without the blank ends; or no token is a remark, and the tokens cover the
line: their columns increase, they do not overlap, the bytes of each are those of the line from its
column on, and all around them is blank, but for a remark at the end. -/
theorem remark_or_cover_of_ofLine (unbroken : '\n' ∉ line.toList)
    (read : ofLine line = .ok tokens) :
    (tokens = [] ↔ Text.allBlank line = true) ∧
    (tokens ≠ [] →
      (∃ kind marker blanks text, (kind, marker) ∈ markers ∧
        (kind = .comment → text.head? ≠ some '!') ∧ (∀ c ∈ blanks, Text.isBlank c = true) ∧
        line.toList = blanks ++ marker ++ text ∧
        tokens = [⟨kind, Text.trim (.ofList text), Text.byteCount blanks⟩]) ∨
      Cover tokens line) := by
  refine ⟨eq_nil_iff_of_ofLine unbroken read, fun _ => ?_⟩
  by_cases remark : ∃ token ∈ tokens, token.kind.isRemark = true
  · obtain ⟨token, member, remark⟩ := remark
    have alone := (reads_of_ofLine unbroken read).remark rfl unbroken member remark
    simp only [Nat.zero_add] at alone
    exact .inl alone
  · have kept : ∀ token ∈ tokens, token.kind.isRemark = false := by
      intro token member
      exact Bool.eq_false_iff.mpr fun kind => remark ⟨token, member, kind⟩
    exact .inr (cover_of_ofLine unbroken read kept)

/-- Tokens behind a blank of three bytes, one of them with letters of two, cover their line up to
the remark. -/
theorem remark_or_cover_of_ofLine_wide :
    '\n' ∉ "\u3000EAX = 'é'+x // é".toList ∧
    ofLine "\u3000EAX = 'é'+x // é" = .ok [⟨.register, "EAX", 3⟩, ⟨.symbol, "=", 7⟩,
      ⟨.text, "'é'", 9⟩, ⟨.symbol, "+", 13⟩, ⟨.identifier, "x", 14⟩] ∧
    Cover [⟨.register, "EAX", 3⟩, ⟨.symbol, "=", 7⟩, ⟨.text, "'é'", 9⟩, ⟨.symbol, "+", 13⟩,
      ⟨.identifier, "x", 14⟩] "\u3000EAX = 'é'+x // é" := by
  have unbroken : '\n' ∉ "\u3000EAX = 'é'+x // é".toList := by decide +kernel
  have read : ofLine "\u3000EAX = 'é'+x // é" = .ok [⟨.register, "EAX", 3⟩, ⟨.symbol, "=", 7⟩,
      ⟨.text, "'é'", 9⟩, ⟨.symbol, "+", 13⟩, ⟨.identifier, "x", 14⟩] :=
    ofLine_of_toOption (by decide +kernel)
  refine ⟨unbroken, read, ?_⟩
  obtain ⟨kind, marker, blanks, text, -, -, -, -, alone⟩ | cover :=
    (remark_or_cover_of_ofLine unbroken read).2 (List.cons_ne_nil _ _)
  · exact absurd (congrArg List.length alone) (by simp)
  · exact cover

end Token

end LineAsm
