import DocCoverage.Text.Utf8

/-!
# Strict decoding is the inverse of encoding

A text is decoded from its own bytes and from no others. Characters of two, three and four bytes
are told apart by their leading bytes; the ranges of the bytes behind those leave out what is
spelled with more bytes than it takes and what is no character.
-/

namespace DocCoverage.Text.Utf8

variable {byte : UInt8} {rest bytes : List UInt8} {char : Char}

section Lead

variable {byte : Nat}

theorem lead?_two (above : 0xC2 ≤ byte) (below : byte ≤ 0xDF) :
    lead? byte = some ⟨1, 0x80, 0xBF, byte - 0xC0⟩ := if_pos ⟨above, below⟩

theorem lead?_three (above : 0xE0 ≤ byte) (below : byte ≤ 0xEF) :
    lead? byte = some ⟨2, if byte = 0xE0 then 0xA0 else 0x80, if byte = 0xED then 0x9F else 0xBF,
      byte - 0xE0⟩ := by
  unfold lead?
  rw [if_neg (by omega)]
  by_cases first : byte = 0xE0
  · subst first
    rfl
  · by_cases surrogates : byte = 0xED
    · subst surrogates
      rfl
    · rw [if_neg first, if_neg surrogates, if_pos (by omega), if_neg first, if_neg surrogates]

theorem lead?_four (above : 0xF0 ≤ byte) (below : byte ≤ 0xF4) :
    lead? byte = some ⟨3, if byte = 0xF0 then 0x90 else 0x80, if byte = 0xF4 then 0x8F else 0xBF,
      byte - 0xF0⟩ := by
  unfold lead?
  rw [if_neg (by omega), if_neg (by omega), if_neg (by omega), if_neg (by omega)]
  by_cases first : byte = 0xF0
  · subst first
    rfl
  · by_cases last : byte = 0xF4
    · subst last
      rfl
    · rw [if_neg first, if_pos (by omega), if_neg first, if_neg last]

/-- After two of the leading bytes the range of the next one is narrower. -/
theorem within_iff {value first last low high : Nat} (least : 0x80 ≤ low) (greatest : high ≤ 0xBF) :
    ((if byte = first then low else 0x80) ≤ value ∧
        value ≤ if byte = last then high else 0xBF) ↔
      (0x80 ≤ value ∧ value ≤ 0xBF) ∧ (byte = first → low ≤ value) ∧
        (byte = last → value ≤ high) := by
  split <;> split <;> omega

theorem range_of_lead? {lead : Lead} (leads : lead? byte = some lead) :
    0xC2 ≤ byte ∧ byte ≤ 0xF4 := by
  refine Decidable.byContradiction fun outside => ?_
  unfold lead? at leads
  rw [if_neg (by omega), if_neg (by omega), if_neg (by omega), if_neg (by omega),
    if_neg (by omega), if_neg (by omega), if_neg (by omega)] at leads
  cases leads

end Lead

section Encoded

variable {value : Nat} {first second third fourth : UInt8}

theorem val_ofNat (valid : value.isValidChar) : (Char.ofNat value).val.toNat = value := by
  rw [Char.ofNat, dif_pos valid]
  rfl

theorem ofNat_eq_of_toNat (same : value = first.toNat) : UInt8.ofNat value = first := by
  rw [same]
  exact UInt8.ofNat_toNat

theorem utf8EncodeChar_one (lead : first.toNat < 0x80) :
    String.utf8EncodeChar (Char.ofNat first.toNat) = [first] := by
  rw [String.utf8EncodeChar, val_ofNat (.inl (by omega)), if_pos (by omega), ofNat_eq_of_toNat rfl]

theorem utf8EncodeChar_two (lead : 0xC2 ≤ first.toNat ∧ first.toNat ≤ 0xDF)
    (trail : 0x80 ≤ second.toNat ∧ second.toNat ≤ 0xBF) :
    String.utf8EncodeChar
      (Char.ofNat ((first.toNat - 0xC0) * 64 + (second.toNat - 0x80))) = [first, second] := by
  rw [String.utf8EncodeChar, val_ofNat (.inl (by omega)), if_neg (by omega), if_pos (by omega)]
  refine List.cons_eq_cons.mpr ⟨ofNat_eq_of_toNat (by omega), ?_⟩
  exact List.cons_eq_cons.mpr ⟨ofNat_eq_of_toNat (by omega), rfl⟩

theorem utf8EncodeChar_three (lead : 0xE0 ≤ first.toNat ∧ first.toNat ≤ 0xEF)
    (trail : 0x80 ≤ second.toNat ∧ second.toNat ≤ 0xBF)
    (long : first.toNat = 0xE0 → 0xA0 ≤ second.toNat)
    (scalar : first.toNat = 0xED → second.toNat ≤ 0x9F)
    (trail' : 0x80 ≤ third.toNat ∧ third.toNat ≤ 0xBF) :
    String.utf8EncodeChar
      (Char.ofNat (((first.toNat - 0xE0) * 64 + (second.toNat - 0x80)) * 64 +
        (third.toNat - 0x80))) = [first, second, third] := by
  rw [String.utf8EncodeChar, val_ofNat (by unfold Nat.isValidChar; omega), if_neg (by omega),
    if_neg (by omega), if_pos (by omega)]
  refine List.cons_eq_cons.mpr ⟨ofNat_eq_of_toNat (by omega), ?_⟩
  refine List.cons_eq_cons.mpr ⟨ofNat_eq_of_toNat (by omega), ?_⟩
  exact List.cons_eq_cons.mpr ⟨ofNat_eq_of_toNat (by omega), rfl⟩

theorem utf8EncodeChar_four (lead : 0xF0 ≤ first.toNat ∧ first.toNat ≤ 0xF4)
    (trail : 0x80 ≤ second.toNat ∧ second.toNat ≤ 0xBF)
    (long : first.toNat = 0xF0 → 0x90 ≤ second.toNat)
    (scalar : first.toNat = 0xF4 → second.toNat ≤ 0x8F)
    (trail' : 0x80 ≤ third.toNat ∧ third.toNat ≤ 0xBF)
    (trail'' : 0x80 ≤ fourth.toNat ∧ fourth.toNat ≤ 0xBF) :
    String.utf8EncodeChar
      (Char.ofNat ((((first.toNat - 0xF0) * 64 + (second.toNat - 0x80)) * 64 +
        (third.toNat - 0x80)) * 64 + (fourth.toNat - 0x80))) = [first, second, third, fourth] := by
  rw [String.utf8EncodeChar, val_ofNat (by unfold Nat.isValidChar; omega), if_neg (by omega),
    if_neg (by omega), if_neg (by omega)]
  refine List.cons_eq_cons.mpr ⟨ofNat_eq_of_toNat (by omega), ?_⟩
  refine List.cons_eq_cons.mpr ⟨ofNat_eq_of_toNat (by omega), ?_⟩
  refine List.cons_eq_cons.mpr ⟨ofNat_eq_of_toNat (by omega), ?_⟩
  exact List.cons_eq_cons.mpr ⟨ofNat_eq_of_toNat (by omega), rfl⟩

end Encoded

section Piece

variable {following low high bits width total : Nat}

theorem continuation_cons (within : low ≤ byte.toNat ∧ byte.toNat ≤ high) (rest : List UInt8) :
    continuation (following + 1) low high bits width (byte :: rest) =
      continuation following 0x80 0xBF (bits * 64 + (byte.toNat - 0x80)) (width + 1) rest :=
  if_pos within

/-- A character goes on only where there is a byte for it. -/
theorem exists_of_continuation
    (read : continuation (following + 1) low high bits width bytes = .char char total) :
    ∃ byte rest, bytes = byte :: rest ∧ (low ≤ byte.toNat ∧ byte.toNat ≤ high) ∧
      continuation following 0x80 0xBF (bits * 64 + (byte.toNat - 0x80)) (width + 1) rest =
        .char char total := by
  cases bytes with
  | nil => cases read
  | cons byte rest =>
    by_cases within : low ≤ byte.toNat ∧ byte.toNat ≤ high
    · exact ⟨byte, rest, rfl, within, (continuation_cons within rest).symm.trans read⟩
    · rw [continuation, if_neg within] at read
      cases read

theorem piece_of_lead? {lead : Lead} (leads : lead? byte.toNat = some lead) (rest : List UInt8) :
    piece byte rest = continuation lead.following lead.low lead.high lead.bits 1 rest := by
  have range := range_of_lead? leads
  unfold piece
  rw [if_neg (by omega), leads]

/-- The bytes of a character are one piece, whatever stands behind them. -/
theorem piece_append {more : List UInt8} (spelled : String.utf8EncodeChar char = byte :: more)
    (rest : List UInt8) : piece byte (more ++ rest) = .char char (more.length + 1) := by
  have valid : char.val.toNat < 0xD800 ∨ 0xDFFF < char.val.toNat ∧ char.val.toNat < 0x110000 :=
    char.valid
  have small {value : Nat} (below : value < 256) : (UInt8.ofNat value).toNat = value :=
    UInt8.toNat_ofNat_of_lt below
  have same {value : Nat} (eq : value = char.val.toNat) : Char.ofNat value = char := by
    rw [eq]
    exact Char.ofNat_toNat char
  unfold String.utf8EncodeChar at spelled
  dsimp only at spelled
  split at spelled
  · obtain ⟨rfl, rfl⟩ := List.cons.inj spelled
    rw [piece, small (by omega), if_pos (by omega), same rfl]
    rfl
  · split at spelled
    · obtain ⟨rfl, rfl⟩ := List.cons.inj spelled
      have first : (UInt8.ofNat (char.val.toNat / 64 % 32 + 192)).toNat = _ := small (by omega)
      have second : (UInt8.ofNat (char.val.toNat % 64 + 128)).toNat = _ := small (by omega)
      rw [piece_of_lead? (lead?_two (by omega) (by omega)), List.cons_append,
        continuation_cons (by dsimp only; omega), continuation, first, second,
        same (by dsimp only; omega)]
      rfl
    · split at spelled
      · obtain ⟨rfl, rfl⟩ := List.cons.inj spelled
        have first : (UInt8.ofNat (char.val.toNat / 4096 % 16 + 224)).toNat = _ := small (by omega)
        have second : (UInt8.ofNat (char.val.toNat / 64 % 64 + 128)).toNat = _ := small (by omega)
        have third : (UInt8.ofNat (char.val.toNat % 64 + 128)).toNat = _ := small (by omega)
        rw [piece_of_lead? (lead?_three (by omega) (by omega)), List.cons_append,
          continuation_cons ((within_iff (by decide) (by decide)).mpr (by omega)), List.cons_append,
          continuation_cons (by omega), continuation, first, second, third,
          same (by dsimp only; omega)]
        rfl
      · obtain ⟨rfl, rfl⟩ := List.cons.inj spelled
        have first : (UInt8.ofNat (char.val.toNat / 262144 % 8 + 240)).toNat = _ := small (by omega)
        have second : (UInt8.ofNat (char.val.toNat / 4096 % 64 + 128)).toNat = _ := small (by omega)
        have third : (UInt8.ofNat (char.val.toNat / 64 % 64 + 128)).toNat = _ := small (by omega)
        have fourth : (UInt8.ofNat (char.val.toNat % 64 + 128)).toNat = _ := small (by omega)
        rw [piece_of_lead? (lead?_four (by omega) (by omega)), List.cons_append,
          continuation_cons ((within_iff (by decide) (by decide)).mpr (by omega)), List.cons_append,
          continuation_cons (by omega), List.cons_append, continuation_cons (by omega),
          continuation, first, second, third, fourth, same (by dsimp only; omega)]
        rfl

/-- A piece that is a character covers the bytes of that character. -/
theorem append_of_piece (read : piece byte rest = .char char total) :
    byte :: rest = String.utf8EncodeChar char ++ rest.drop (total - 1) := by
  by_cases single : byte.toNat < 0x80
  · rw [piece, if_pos single] at read
    obtain ⟨rfl, rfl⟩ := Piece.char.inj read
    rw [utf8EncodeChar_one single]
    rfl
  · obtain ⟨lead, leads⟩ : ∃ lead, lead? byte.toNat = some lead := by
      cases leads : lead? byte.toNat with
      | none =>
        rw [piece, if_neg single, leads] at read
        cases read
      | some lead => exact ⟨lead, rfl⟩
    have range := range_of_lead? leads
    by_cases two : byte.toNat ≤ 0xDF
    · rw [piece_of_lead? (lead?_two range.1 two)] at read
      obtain ⟨second, rest, rfl, trail, read⟩ := exists_of_continuation read
      obtain ⟨rfl, rfl⟩ := Piece.char.inj read
      rw [utf8EncodeChar_two ⟨range.1, two⟩ trail]
      rfl
    · by_cases three : byte.toNat ≤ 0xEF
      · rw [piece_of_lead? (lead?_three (by omega) three)] at read
        obtain ⟨second, rest, rfl, within, read⟩ := exists_of_continuation read
        obtain ⟨third, rest, rfl, trail', read⟩ := exists_of_continuation read
        obtain ⟨rfl, rfl⟩ := Piece.char.inj read
        obtain ⟨trail, long, scalar⟩ := (within_iff (by decide) (by decide)).mp within
        rw [utf8EncodeChar_three ⟨by omega, three⟩ trail long scalar trail']
        rfl
      · rw [piece_of_lead? (lead?_four (by omega) range.2)] at read
        obtain ⟨second, rest, rfl, within, read⟩ := exists_of_continuation read
        obtain ⟨third, rest, rfl, trail', read⟩ := exists_of_continuation read
        obtain ⟨fourth, rest, rfl, trail'', read⟩ := exists_of_continuation read
        obtain ⟨rfl, rfl⟩ := Piece.char.inj read
        obtain ⟨trail, long, scalar⟩ := (within_iff (by decide) (by decide)).mp within
        rw [utf8EncodeChar_four ⟨by omega, range.2⟩ trail long scalar trail' trail'']
        rfl

end Piece

section Decode

variable {index width : Nat} {chars : List Char}

/-- Behind a character, decoding goes on where its bytes end. -/
theorem characters_cons (read : piece byte rest = .char char width) :
    characters index (pieces (byte :: rest)) =
      (characters (index + width) (pieces (rest.drop (width - 1)))).map (char :: ·) := by
  rw [pieces, read, characters]
  rfl

/-- The bytes of characters are decoded to those characters. -/
theorem characters_flatMap (index : Nat) (chars : List Char) :
    characters index (pieces (chars.flatMap String.utf8EncodeChar)) = .ok chars := by
  induction chars generalizing index with
  | nil =>
    rw [List.flatMap_nil, pieces]
    rfl
  | cons char chars ih =>
    obtain ⟨lead, more, own⟩ :=
      List.exists_cons_of_ne_nil (String.utf8EncodeChar_ne_nil (c := char))
    rw [List.flatMap_cons, own, List.cons_append, characters_cons (piece_append own _),
      Nat.add_sub_cancel, List.drop_left, ih]
    rfl

/-- Bytes that are decoded are those of the characters. -/
theorem flatMap_of_characters (decoded : characters index (pieces bytes) = .ok chars) :
    chars.flatMap String.utf8EncodeChar = bytes := by
  induction measured : bytes.length using Nat.strongRecOn generalizing bytes index chars with
  | _ length ih =>
    subst measured
    cases bytes with
    | nil =>
      rw [pieces] at decoded
      obtain rfl := Except.ok.inj decoded
      rfl
    | cons byte rest =>
      cases read : piece byte rest with
      | char char width =>
        rw [characters_cons read] at decoded
        cases further : characters (index + width) (pieces (rest.drop (width - 1))) with
        | error defect =>
          rw [further] at decoded
          cases decoded
        | ok others =>
          rw [further] at decoded
          obtain rfl := Except.ok.inj decoded
          have shorter := Nat.lt_succ_of_le (List.drop_suffix (width - 1) rest).length_le
          rw [List.flatMap_cons, ih _ shorter further rfl]
          exact (append_of_piece read).symm
      | invalid | incomplete =>
        rw [pieces, read] at decoded
        cases decoded

/-- Bytes are decoded to the text that they are the bytes of, if there is one. -/
theorem decode_eq_ok_iff {text : String} : decode bytes = .ok text ↔ encode text = bytes := by
  unfold decode encode
  constructor
  · intro decoded
    cases read : characters 0 (pieces bytes) with
    | error defect =>
      rw [read] at decoded
      cases decoded
    | ok chars =>
      rw [read] at decoded
      obtain rfl := Except.ok.inj decoded
      rw [String.toList_ofList]
      exact flatMap_of_characters read
  · rintro rfl
    rw [characters_flatMap]
    exact congrArg Except.ok String.ofList_toList

end Decode

end DocCoverage.Text.Utf8
