import EventRelay.Json.Reader
import EventRelay.Proofs.Json.Spelling
import EventRelay.Proofs.Text.Utf8

/-!
# Written values are read back

A value that is written and read again is the value in normal form with its numbers read back, if it
is not too deep. The reader takes the tokens of a value wherever a value must begin, and puts the
value into the innermost hole; the containers that are open then are those that were open before.
-/

namespace EventRelay.Json

open EventRelay.Text (Symbol)

/-! ## Numbers that are read back -/

/-- A value all of whose numbers are read back from their numerals. -/
def Readable (value : Json) : Prop :=
  ∀ number ∈ value.numbers, number.Readable

theorem readable_of_integers {value : Json}
    (integers : ∀ number ∈ value.numbers, number.isInteger = true) : value.Readable :=
  fun number member => Number.readable_of_isInteger (integers number member)

/-- The value with its numbers as they are read back. -/
def reread (value : Json) : Json :=
  value.mapNumbers Number.reread

@[simp] theorem reread_array (items : List Json) :
    (array items).reread = array (items.map reread) :=
  mapNumbers_array Number.reread items

@[simp] theorem reread_object (members : List (String × Json)) :
    (object members).reread =
      object (members.map fun member => (member.1, member.2.reread)) :=
  mapNumbers_object Number.reread members

theorem Readable.reread_eq {value : Json} (readable : value.Readable) : value.reread = value :=
  mapNumbers_eq_self fun number member => (readable number member).reread_eq

/-! ## Reading tokens -/

/-- What a scan makes of the outcome of a step and the tokens that follow. -/
def Scan.proceed {State Problem Result : Type} (scan : Scan State Problem Result)
    (outcome : Except Problem (Progress State Result)) (rest : List Token) :
    Except Problem (Result × List Token) :=
  match outcome with
  | .error problem => .error problem
  | .ok (.complete result) => .ok (result, rest)
  | .ok (.going next) => scan.run next rest

/-- Reading on after one token. -/
theorem Scan.run_cons {State Problem Result : Type} (scan : Scan State Problem Result)
    (state : State) (token : Token) (rest : List Token) :
    scan.run state (token :: rest) = scan.proceed (scan.step state token) rest := by
  rw [Scan.run]
  rcases scan.step state token with _ | _ | _ <;> rfl

namespace Reader

/-- The first token of a value does not close an array. -/
theorem run_firstItem (room : Nat) (value : Json) (holes : List Hole) (rest : List Token) :
    (reader room).run (.firstItem holes) (value.tokens ++ rest) =
      (reader room).run (.value (.item [] :: holes)) (value.tokens ++ rest) := by
  cases value <;> rfl

/-- The first token of a value does not close an array after a comma either. -/
theorem run_nextItem (room : Nat) (value : Json) (items : List Json) (holes : List Hole)
    (rest : List Token) :
    (reader room).run (.nextItem items holes) (value.tokens ++ rest) =
      (reader room).run (.value (.item items :: holes)) (value.tokens ++ rest) := by
  cases value <;> rfl

/-- A value that fills the innermost hole wherever its tokens stand, its numbers read back. -/
def Fills (room : Nat) (value : Json) : Prop :=
  ∀ holes rest, holes.length + value.depth ≤ room →
    (reader room).run (.value holes) (value.tokens ++ rest) =
      (reader room).proceed (.ok (fill value.reread holes)) rest

variable {room : Nat}

/-- The elements after the first one go into the array, and the array into its hole. -/
theorem run_moreItems {items : List Json} (fills : ∀ item ∈ items, Fills room item)
    {holes : List Hole} (fits : ∀ item ∈ items, holes.length + 1 + item.depth ≤ room)
    (before : List Json) (rest : List Token) :
    (reader room).run (.afterItem before holes) (tokensOfMoreItems items ++ .closeArray :: rest) =
      (reader room).proceed (.ok (fill (.array (before.reverse ++ items.map reread)) holes))
        rest := by
  induction items generalizing before with
  | nil =>
    rw [tokensOfMoreItems, List.nil_append, Scan.run_cons, List.map_nil, List.append_nil]
    rfl
  | cons item more inductionHypothesis =>
    rw [List.forall_mem_cons] at fills fits
    have later := inductionHypothesis fills.2 fits.2 (item.reread :: before)
    have filled := fills.1 (.item before :: holes) (tokensOfMoreItems more ++ .closeArray :: rest)
      (by simpa using fits.1)
    rw [tokensOfMoreItems, List.cons_append, List.append_assoc, Scan.run_cons]
    refine (run_nextItem room item before holes _).trans (filled.trans (later.trans ?_))
    simp

/-- A member with its name goes into its object, where a name may stand. -/
theorem run_member {value : Json} (fills : Fills room value) {holes : List Hole}
    (fits : holes.length + 1 + value.depth ≤ room) (before : List (String × Json)) (name : String)
    (rest : List Token) :
    (reader room).proceed ((nameOf (.text (piecesOf name))).map fun name =>
        .going (.colon before name holes)) (.colon :: (value.tokens ++ rest)) =
      (reader room).run (.afterMember ((name, value.reread) :: before) holes) rest := by
  have named : nameOf (.text (piecesOf name)) = .ok name := textOf_piecesOf name
  have filled := fills (.member before name :: holes) rest (by simpa using fits)
  rw [named]
  exact (Scan.run_cons (reader room) (.colon before name holes) .colon _).trans filled

/-- The members after the first one go into the object, and the object into its hole. -/
theorem run_moreMembers {members : List (String × Json)}
    (fills : ∀ member ∈ members, Fills room member.2) {holes : List Hole}
    (fits : ∀ member ∈ members, holes.length + 1 + member.2.depth ≤ room)
    (before : List (String × Json)) (rest : List Token) :
    (reader room).run (.afterMember before holes)
        (tokensOfMoreMembers members ++ .closeObject :: rest) =
      (reader room).proceed
        (.ok (fill (.object (before.reverse ++
          members.map fun member => (member.1, member.2.reread))) holes)) rest := by
  induction members generalizing before with
  | nil =>
    rw [tokensOfMoreMembers, List.nil_append, Scan.run_cons, List.map_nil, List.append_nil]
    rfl
  | cons member more inductionHypothesis =>
    obtain ⟨name, value⟩ := member
    rw [List.forall_mem_cons] at fills fits
    have later := inductionHypothesis fills.2 fits.2 ((name, value.reread) :: before)
    have taken := run_member fills.1 fits.1 before name
      (tokensOfMoreMembers more ++ .closeObject :: rest)
    simp only [tokensOfMoreMembers, List.cons_append, List.append_assoc]
    rw [Scan.run_cons]
    refine (Scan.run_cons (reader room) (.nextName before holes) _ _).trans
      (taken.trans (later.trans ?_))
    simp

/-- Every value fills the hole that its tokens are read for, if there is room for the containers
that it opens. -/
theorem fills (value : Json) : Fills room value := by
  induction value with
  | null => exact fun holes rest _ => Scan.run_cons _ _ _ _
  | boolean value => exact fun holes rest _ => Scan.run_cons _ _ _ _
  | number value =>
    intro holes rest _
    refine (Scan.run_cons _ _ _ _).trans ?_
    simp [reader, step, begin, Number.numberOf_numeral, Except.map, reread, mapNumbers]
  | text value =>
    intro holes rest _
    have read := textOf_piecesOf value
    refine (Scan.run_cons _ _ _ _).trans ?_
    simp [reader, step, begin, read, Except.map, reread, mapNumbers]
  | array items inductionHypothesis =>
    intro holes rest fits
    have opened : holes.length < room := by
      have positive := depth_array_pos items
      omega
    have fitsItems : ∀ item ∈ items, holes.length + 1 + item.depth ≤ room := by
      intro item member
      have deeper := depth_lt_array member
      omega
    rw [tokens, List.cons_append, List.append_assoc, Scan.run_cons]
    have begun : (reader room).step (.value holes) .openArray = .ok (.going (.firstItem holes)) :=
      if_pos opened
    rw [begun]
    cases items with
    | nil => exact Scan.run_cons _ _ _ _
    | cons item more =>
      rw [List.forall_mem_cons] at inductionHypothesis fitsItems
      have later := run_moreItems inductionHypothesis.2 fitsItems.2 [item.reread] rest
      rw [tokensOfItems, List.append_assoc]
      refine (run_firstItem room item holes _).trans ?_
      refine (inductionHypothesis.1 _ _ (by simpa using fitsItems.1)).trans ?_
      rw [reread_array]
      exact later
  | object members inductionHypothesis =>
    intro holes rest fits
    have opened : holes.length < room := by
      have positive := depth_object_pos members
      omega
    have fitsMembers : ∀ member ∈ members, holes.length + 1 + member.2.depth ≤ room := by
      intro member present
      have deeper := depth_lt_object present
      omega
    rw [tokens, List.cons_append, List.append_assoc, Scan.run_cons]
    have begun : (reader room).step (.value holes) .openObject = .ok (.going (.firstName holes)) :=
      if_pos opened
    rw [begun]
    cases members with
    | nil => exact Scan.run_cons _ _ _ _
    | cons member more =>
      obtain ⟨name, value⟩ := member
      rw [List.forall_mem_cons] at inductionHypothesis fitsMembers
      have taken := run_member inductionHypothesis.1 fitsMembers.1 [] name
        (tokensOfMoreMembers more ++ .closeObject :: rest)
      have later := run_moreMembers inductionHypothesis.2 fitsMembers.2 [(name, value.reread)] rest
      rw [tokensOfMembers, List.cons_append, List.cons_append, List.append_assoc]
      refine (Scan.run_cons _ _ _ _).trans (taken.trans ?_)
      rw [reread_object]
      exact later

end Reader

/-- A value is read back from its tokens, its members in the order they are written. -/
theorem read_tokens {value : Json} (shallow : value.depth ≤ maxDepth) :
    read value.tokens = .ok value.reread := by
  have fills : Reader.Fills maxDepth value := Reader.fills value
  have filled := fills [] [] (by simpa using shallow)
  rw [List.append_nil] at filled
  rw [read, filled]
  rfl

/-! ## Characters -/

@[simp] theorem spell_cons (token : Token) (tokens : List Token) :
    spell (token :: tokens) = token.spelling.filterMap Symbol.char? ++ spell tokens := by
  simp [spell]

/-- Symbols that are characters, as characters and back. -/
theorem symbolsOf_filterMap {symbols : List Symbol}
    (encoded : ∀ symbol ∈ symbols, symbol.char?.isSome) :
    symbolsOf (symbols.filterMap Symbol.char?) = symbols := by
  induction symbols with
  | nil => rfl
  | cons symbol rest inductionHypothesis =>
    rw [List.forall_mem_cons] at encoded
    cases symbol with
    | char c => simpa [Symbol.char?] using inductionHypothesis encoded.2
    | stray byte => simp [Symbol.char?] at encoded

/-- The pieces of a text are spelled in characters. -/
theorem encoded_text (text : String) :
    ∀ symbol ∈ (Token.text (piecesOf text)).spelling, symbol.char?.isSome := by
  have pieces : ∀ piece ∈ piecesOf text, ∀ symbol ∈ piece.spelling, symbol.char?.isSome := by
    intro piece written
    obtain ⟨c, _, rfl⟩ := List.mem_map.mp written
    unfold Piece.ofChar
    split
    · simp [Piece.spelling, Symbol.char?]
    · split <;> simp [Piece.spelling, Symbol.char?]
  intro symbol member
  simp only [Token.spelling, List.mem_cons, List.mem_append, List.mem_flatMap, List.not_mem_nil,
    or_false, List.cons_append] at member
  rcases member with rfl | ⟨piece, written, inside⟩ | rfl
  · rfl
  · exact pieces piece written symbol inside
  · rfl

/-- A mark is spelled in characters. -/
theorem encoded_mark {token : Token} (plain : token.isMark = true) :
    ∀ symbol ∈ token.spelling, symbol.char?.isSome := by
  cases token with
  | openArray | closeArray | openObject | closeObject | comma | colon | null => decide
  | boolean value => cases value <;> decide
  | _ => exact absurd plain (by simp [Token.isMark])

/-- The characters that spell written tokens are their spelling. -/
theorem symbolsOf_spell {tokens : List Token} (written : Written tokens) :
    symbolsOf (spell tokens) = spellings tokens := by
  induction written with
  | nil => rfl
  | mark plain later inductionHypothesis =>
    rw [spell_cons, symbolsOf_append, symbolsOf_filterMap (encoded_mark plain),
      inductionHypothesis, spellings_cons]
  | text value later inductionHypothesis =>
    rw [spell_cons, symbolsOf_append, symbolsOf_filterMap (encoded_text value),
      inductionHypothesis, spellings_cons]
  | number proper ends later inductionHypothesis =>
    have encoded : ∀ numeral : Numeral, ∀ symbol ∈ (Token.number numeral).spelling,
        symbol.char?.isSome := fun numeral =>
      List.forall_mem_map.mpr fun c _ => rfl
    rw [spell_cons, symbolsOf_append, symbolsOf_filterMap (encoded _), inductionHypothesis,
      spellings_cons]

/-- The symbols of the text of a value are the spelling of its tokens. -/
theorem symbolsOf_write (value : Json) : symbolsOf value.write.toList = spellings value.tokens := by
  rw [write, String.toList_ofList]
  exact symbolsOf_spell (written_tokens value)

/-- Readable values are told apart by the text that they are written as. -/
theorem write_injective {first second : Json} (readableFirst : first.Readable)
    (shallowFirst : first.depth ≤ maxDepth) (readableSecond : second.Readable)
    (shallowSecond : second.depth ≤ maxDepth) (same : first.write = second.write) :
    first = second := by
  have spelled : spellings first.tokens = spellings second.tokens := by
    rw [← symbolsOf_write, ← symbolsOf_write, same]
  have tokens : first.tokens = second.tokens := by
    rw [← lex_tokens first, ← lex_tokens second, spelled]
  have read : Except.ok first.reread = Except.ok second.reread :=
    (read_tokens shallowFirst).symm.trans (tokens ▸ read_tokens shallowSecond)
  rw [← readableFirst.reread_eq, ← readableSecond.reread_eq]
  exact Except.ok.inj read

/-- A value is read from the text that it is written as like from its tokens. -/
theorem parseText_write_eq (value : Json) :
    parseText value.write = (read value.tokens).map normal := by
  have symbols : value.write.toList.map .char = spellings value.tokens := symbolsOf_write value
  rw [parseText, symbols, parseSymbols, lex_tokens]

/-- The bytes that a value is written as have its tokens. -/
theorem lex_bytes (value : Json) : lex (Text.Utf8.symbols value.bytes) = value.tokens := by
  have symbols : value.write.toList.map .char = spellings value.tokens := symbolsOf_write value
  rw [bytes, Text.Utf8.symbols_encode, symbols, lex_tokens]

/-- A readable value is read back, its members in the order they are written, from the bytes that it
is written as. -/
theorem read_bytes {value : Json} (readable : value.Readable)
    (shallow : value.depth ≤ maxDepth) :
    read (lex (Text.Utf8.symbols value.bytes)) = .ok value := by
  rw [lex_bytes, read_tokens shallow, readable.reread_eq]

/-- A value is read from the bytes that it is written as like from its text. -/
theorem parse_bytes_eq (value : Json) : parse value.bytes = parseText value.write := by
  rw [parse, bytes, Text.Utf8.symbols_encode, parseText]

/-- A readable value is read back in normal form from the text that it is written as. -/
theorem parseText_write {value : Json} (readable : value.Readable)
    (shallow : value.depth ≤ maxDepth) : parseText value.write = .ok value.normal := by
  rw [parseText_write_eq, read_tokens shallow, readable.reread_eq]
  rfl

/-- A readable value is read back in normal form from the bytes that it is written as. -/
theorem parse_bytes {value : Json} (readable : value.Readable)
    (shallow : value.depth ≤ maxDepth) : parse value.bytes = .ok value.normal := by
  rw [parse_bytes_eq]
  exact parseText_write readable shallow

end EventRelay.Json
