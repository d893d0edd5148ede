import RunnerPool.Text.Utf8

/-!
# Reading what was written in UTF-8

The bytes of a text are read as that text, and a stream that was cut anywhere is read either as a
shorter text or not at all: a character whose bytes are not all there is never taken for another.

* `decode_encode`             reading gives back what was written
* `newline_mem_encode`        a newline byte stands for a newline only
* `decode_of_prefix_encode`   what a cut stream is read as
* `toOption_decode_concat`    what bytes are read as that one of ASCII follows
-/

namespace RunnerPool

/-- The beginning of two lists one after the other ends within the first or goes on into the
    second. -/
theorem prefix_append_cases {p a b : List α} (h : p <+: a ++ b) :
    (p <+: a ∧ p ≠ a) ∨ ∃ q, p = a ++ q ∧ q <+: b := by
  obtain ⟨r, hr⟩ := h
  -- the prefix ends within the first list or goes on into the second
  rcases List.append_eq_append_iff.mp hr with ⟨m, ha, hb⟩ | ⟨m, hp, hb⟩
  · cases m with
    | nil =>
      rw [List.append_nil] at ha
      exact Or.inr ⟨[], by rw [ha, List.append_nil], List.nil_prefix⟩
    | cons x xs =>
      refine Or.inl ⟨⟨x :: xs, ha.symm⟩, ?_⟩
      rintro rfl
      exact nomatch List.append_cancel_left ((List.append_nil p).trans ha)
  · exact Or.inr ⟨m, hp, ⟨r, hb.symm⟩⟩

namespace Utf8

@[simp] theorem encode_nil : encode [] = [] := rfl

@[simp] theorem encode_cons (c : Char) (cs : List Char) :
    encode (c :: cs) = String.utf8EncodeChar c ++ encode cs := rfl

@[simp] theorem encode_append (cs ds : List Char) : encode (cs ++ ds) = encode cs ++ encode ds :=
  List.flatMap_append

/-! ### One character -/

/-- The bytes complete the character in hand, and no byte before the last does. -/
def Completes (c : Char) : Option Torn → List UInt8 → Prop
  | _, [] => False
  | hand, [b] => step hand b.toNat = ([.char c], none)
  | hand, b :: b' :: bs =>
    ∃ t, step hand b.toNat = ([], some t) ∧ Completes c (some t) (b' :: bs)

/-- A byte that continues a character of which more is to come. -/
private theorem step_more (need low high bits taken b : Nat) (h : low ≤ b ∧ b ≤ high) :
    step (some ⟨need + 2, low, high, bits, taken⟩) b =
      ([], some ⟨need + 1, 0x80, 0xbf, bits * 64 + (b - 0x80), taken + 1⟩) := by
  simp [step, h]

/-- The last byte of a character. -/
private theorem step_last (low high bits taken b : Nat) (h : low ≤ b ∧ b ≤ high) (c : Char)
    (hc : bits * 64 + (b - 0x80) = c.toNat) :
    step (some ⟨1, low, high, bits, taken⟩) b = ([.char c], none) := by
  simp [step, h, hc]

/-- The first byte of two announces one more. -/
private theorem begin_two (v : Nat) (hLow : 0x80 ≤ v) (hHigh : v < 0x800) :
    begin (v / 64 % 32 + 192) = ([], some ⟨1, 0x80, 0xbf, v / 64, 1⟩) := by
  have hLead : v / 64 % 32 + 192 = v / 64 + 0xc0 := by omega
  rw [hLead, begin, if_neg (by omega), if_neg (by omega), if_pos (by omega), Nat.add_sub_cancel]

/-- The first byte of three announces two more, of which the second completes no overlong form
    and no surrogate. -/
private theorem begin_three (v : Nat) (hLow : 0x800 ≤ v) (hHigh : v < 0x10000)
    (hValid : v < 0xd800 ∨ 0xdfff < v) :
    ∃ low high, begin (v / 4096 % 16 + 224) = ([], some ⟨2, low, high, v / 4096, 1⟩) ∧
      low ≤ v / 64 % 64 + 128 ∧ v / 64 % 64 + 128 ≤ high := by
  have hLead : v / 4096 % 16 + 224 = v / 4096 + 0xe0 := by omega
  rw [hLead, begin, if_neg (by omega), if_neg (by omega), if_neg (by omega), Nat.add_sub_cancel]
  -- the second byte starts higher where the first one is the least, so that two bytes are too few
  by_cases hFirst : v / 4096 = 0
  · refine ⟨0xa0, 0xbf, by rw [if_pos (by omega), hFirst], ?_, ?_⟩ <;> omega
  rw [if_neg (by omega)]
  -- and ends lower where the surrogates would begin
  by_cases hSurrogate : v / 4096 = 13
  · refine ⟨0x80, 0x9f, by rw [if_pos (by omega), hSurrogate], ?_, ?_⟩ <;> omega
  rw [if_neg (by omega), if_pos (by omega)]
  refine ⟨0x80, 0xbf, rfl, ?_, ?_⟩ <;> omega

/-- The first byte of four announces three more, of which the second completes no overlong form
    and no number above the largest character. -/
private theorem begin_four (v : Nat) (hLow : 0x10000 ≤ v) (hHigh : v < 0x110000) :
    ∃ low high, begin (v / 262144 % 8 + 240) = ([], some ⟨3, low, high, v / 262144, 1⟩) ∧
      low ≤ v / 4096 % 64 + 128 ∧ v / 4096 % 64 + 128 ≤ high := by
  have hLead : v / 262144 % 8 + 240 = v / 262144 + 0xf0 := by omega
  rw [hLead, begin, if_neg (by omega), if_neg (by omega), if_neg (by omega), if_neg (by omega),
    if_neg (by omega), if_neg (by omega), Nat.add_sub_cancel]
  -- the bounds of the second byte depend on the first: no overlong form, no value past the last
  by_cases hFirst : v / 262144 = 0
  · refine ⟨0x90, 0xbf, by rw [if_pos (by omega), hFirst], ?_, ?_⟩ <;> omega
  rw [if_neg (by omega)]
  by_cases hLast : v / 262144 = 4
  · refine ⟨0x80, 0x8f, by rw [if_neg (by omega), if_pos (by omega), hLast], ?_, ?_⟩ <;> omega
  rw [if_pos (by omega)]
  refine ⟨0x80, 0xbf, rfl, ?_, ?_⟩ <;> omega

private theorem toNat_byte (n : Nat) (h : n < 256) : (UInt8.ofNat n).toNat = n := by
  rw [UInt8.toNat_ofNat']
  exact Nat.mod_eq_of_lt h

/-- The bytes of a character complete it. -/
theorem completes_utf8EncodeChar (c : Char) : Completes c none (String.utf8EncodeChar c) := by
  have hValid : c.toNat < 0xd800 ∨ (0xdfff < c.toNat ∧ c.toNat < 0x110000) := c.valid
  simp only [String.utf8EncodeChar]
  have hToNat : c.val.toNat = c.toNat := rfl
  rw [hToNat]
  -- one byte, two, three or four
  split
  · have hLow : c.toNat < 0x80 := by omega
    simp [Completes, step, begin, toNat_byte _ (show c.toNat < 256 by omega), hLow]
  split
  · have hLead := begin_two c.toNat (by omega) (by omega)
    simp only [Completes, step, toNat_byte _ (show c.toNat / 64 % 32 + 192 < 256 by omega),
      toNat_byte _ (show c.toNat % 64 + 128 < 256 by omega)]
    refine ⟨_, hLead, step_last _ _ _ _ _ ?_ c ?_⟩ <;> omega
  split
  · obtain ⟨low, high, hLead, hSecond⟩ :=
      begin_three c.toNat (by omega) (by omega) (by omega)
    simp only [Completes, toNat_byte _ (show c.toNat / 4096 % 16 + 224 < 256 by omega),
      toNat_byte _ (show c.toNat / 64 % 64 + 128 < 256 by omega),
      toNat_byte _ (show c.toNat % 64 + 128 < 256 by omega)]
    refine ⟨_, hLead, _, step_more _ _ _ _ _ _ hSecond, step_last _ _ _ _ _ ?_ c ?_⟩ <;> omega
  · obtain ⟨low, high, hLead, hSecond⟩ := begin_four c.toNat (by omega) (by omega)
    simp only [Completes, toNat_byte _ (show c.toNat / 262144 % 8 + 240 < 256 by omega),
      toNat_byte _ (show c.toNat / 4096 % 64 + 128 < 256 by omega),
      toNat_byte _ (show c.toNat / 64 % 64 + 128 < 256 by omega),
      toNat_byte _ (show c.toNat % 64 + 128 < 256 by omega)]
    refine ⟨_, hLead, _, step_more _ _ _ _ _ _ hSecond, _, step_more _ _ _ _ _ _ ?_,
      step_last _ _ _ _ _ ?_ c ?_⟩ <;> omega

/-- Bytes that complete a character are read as it. -/
theorem Completes.piecesFrom_append {c : Char} {hand : Option Torn} {bytes : List UInt8}
    (h : Completes c hand bytes) (rest : List UInt8) :
    piecesFrom hand (bytes ++ rest) = .char c :: pieces rest := by
  induction bytes generalizing hand with
  | nil => exact h.elim
  | cons b bs ih =>
    cases bs with
    | nil =>
      have h : step hand b.toNat = ([.char c], none) := h
      simp [piecesFrom, pieces, h]
    | cons b' bs =>
      obtain ⟨t, hStep, hMore⟩ := h
      simpa [piecesFrom, hStep] using ih hMore

/-- Some of the bytes that complete a character are read as a torn one. -/
theorem Completes.piecesFrom_of_cut {c : Char} {hand : Option Torn} {bytes cut : List UInt8}
    (h : Completes c hand bytes) (hCut : cut <+: bytes) (hProper : cut ≠ bytes)
    (hBegun : hand ≠ none ∨ cut ≠ []) : ∃ n, piecesFrom hand cut = [.torn n] := by
  induction bytes generalizing hand cut with
  | nil => exact h.elim
  | cons b bs ih =>
    cases cut with
    | nil =>
      cases hand with
      | none => simp at hBegun
      | some t => exact ⟨_, rfl⟩
    | cons b₁ cut =>
      obtain ⟨rfl, hMoreCut⟩ := List.cons_prefix_cons.mp hCut
      cases bs with
      -- the last byte is not in the cut
      | nil => exact (hProper (by rw [List.prefix_nil.mp hMoreCut])).elim
      | cons b' bs =>
        obtain ⟨t, hStep, hMore⟩ := h
        have hShorter : cut ≠ b' :: bs := fun hEq => hProper (by rw [hEq])
        obtain ⟨n, hn⟩ := ih hMore hMoreCut hShorter (Or.inl (by simp))
        exact ⟨n, by simp [piecesFrom, hStep, hn]⟩

/-! ### Whole texts -/

theorem pieces_encode_append (cs : List Char) (rest : List UInt8) :
    pieces (encode cs ++ rest) = cs.map .char ++ pieces rest := by
  induction cs with
  | nil => rfl
  | cons c cs ih =>
    rw [encode_cons, List.append_assoc, pieces,
      (completes_utf8EncodeChar c).piecesFrom_append, ih, List.map_cons, List.cons_append]

theorem charsOf_map_char (index : Nat) (cs : List Char) :
    charsOf index (cs.map .char) = .ok cs := by
  induction cs generalizing index with
  | nil => rfl
  | cons c cs ih =>
    rw [List.map_cons, charsOf, ih]
    rfl

theorem charsOf_torn (index : Nat) (cs : List Char) (n : Nat) :
    charsOf index (cs.map .char ++ [.torn n]) = .error (.incomplete (index + size cs)) := by
  induction cs generalizing index with
  | nil => rfl
  | cons c cs ih =>
    rw [List.map_cons, List.cons_append, charsOf, ih, size, Nat.add_assoc]
    rfl

/-- Reading gives back what was written. -/
theorem decode_encode (cs : List Char) : decode (encode cs) = .ok cs := by
  have hPieces := pieces_encode_append cs []
  rw [List.append_nil] at hPieces
  rw [decode, hPieces, show pieces [] = [] from rfl, List.append_nil, charsOf_map_char]

/-- Bytes from the beginning of a text are those of a shorter text, or end inside a character. -/
theorem prefix_encode_cases {cut : List UInt8} {cs : List Char} (h : cut <+: encode cs) :
    ∃ ds, ds <+: cs ∧ (cut = encode ds ∨ ∃ n, pieces cut = ds.map .char ++ [.torn n]) := by
  induction cs generalizing cut with
  | nil => exact ⟨[], List.nil_prefix, Or.inl (List.prefix_nil.mp h)⟩
  | cons c cs ih =>
    rcases prefix_append_cases h with ⟨hCut, hProper⟩ | ⟨more, rfl, hMore⟩
    · -- the cut is in the bytes of the first character
      refine ⟨[], List.nil_prefix, ?_⟩
      by_cases hEmpty : cut = []
      · exact Or.inl hEmpty
      · exact Or.inr
          ((completes_utf8EncodeChar c).piecesFrom_of_cut hCut hProper (Or.inr hEmpty))
    · -- the first character is all there
      obtain ⟨ds, hds, hRead⟩ := ih hMore
      refine ⟨c :: ds, List.cons_prefix_cons.mpr ⟨rfl, hds⟩, ?_⟩
      rcases hRead with rfl | ⟨n, hn⟩
      · exact Or.inl rfl
      · refine Or.inr ⟨n, ?_⟩
        rw [pieces, (completes_utf8EncodeChar c).piecesFrom_append, hn]
        rfl

/-- What a cut stream is read as: a shorter text, of which it is all, or nothing. -/
theorem decode_of_prefix_encode {cut : List UInt8} {cs : List Char} (h : cut <+: encode cs) :
    (∃ ds, ds <+: cs ∧ cut = encode ds) ∨ ∃ fault, decode cut = .error fault := by
  obtain ⟨ds, hds, hCut | ⟨n, hn⟩⟩ := prefix_encode_cases h
  · exact Or.inl ⟨ds, hds, hCut⟩
  · exact Or.inr ⟨_, by rw [decode, hn, charsOf_torn]⟩

/-- A newline byte stands for a newline only. -/
theorem newline_mem_utf8EncodeChar (c : Char) : 10 ∈ String.utf8EncodeChar c ↔ c = '\n' := by
  have hByte (n : Nat) : (10 : UInt8) = UInt8.ofNat n ↔ n % 256 = 10 := by
    rw [← UInt8.toNat_inj, UInt8.toNat_ofNat']
    exact eq_comm
  have hNewline : c = '\n' ↔ c.toNat = 10 := by
    rw [← Char.toNat_inj]
    rfl
  have hToNat : c.val.toNat = c.toNat := rfl
  simp only [hNewline, String.utf8EncodeChar, hToNat]
  -- of more bytes than one, all are at least 0x80
  split
  · simp only [List.mem_singleton, hByte]
    omega
  split
  · simp only [List.mem_cons, List.not_mem_nil, hByte, or_false]
    omega
  split
  · simp only [List.mem_cons, List.not_mem_nil, hByte, or_false]
    omega
  · simp only [List.mem_cons, List.not_mem_nil, hByte, or_false]
    omega

/-- The bytes of a text hold a newline byte if and only if the text holds a newline. -/
theorem newline_mem_encode (cs : List Char) : 10 ∈ encode cs ↔ '\n' ∈ cs := by
  simp only [encode, List.mem_flatMap, newline_mem_utf8EncodeChar, exists_eq_right]

/-! ### A byte at the end -/

/-- A piece once a byte followed that does not go on with it. -/
def Piece.closed : Piece → Piece
  | .torn n => .malformed n
  | p => p

/-- The character in hand, if there is one, does not go on with an ASCII byte. -/
def Open (hand : Option Torn) : Prop := ∀ t ∈ hand, 0x80 ≤ t.low

theorem open_none : Open none := fun _ h => nomatch h

theorem begin_closed (b : Nat) :
    (begin b).1.map Piece.closed = (begin b).1 ∧ Open (begin b).2 := by
  unfold begin
  repeat' split
  all_goals simp [Piece.closed, Open]

theorem step_closed (hand : Option Torn) (b : Nat) :
    (step hand b).1.map Piece.closed = (step hand b).1 ∧ Open (step hand b).2 := by
  cases hand with
  | none => exact begin_closed b
  | some t =>
    obtain ⟨hPieces, hOpen⟩ := begin_closed b
    rw [step]
    split
    · split <;> simp [Piece.closed, Open]
    · exact ⟨congrArg (Piece.malformed t.taken :: ·) hPieces, hOpen⟩

/-- An ASCII byte at the end is a character of its own, and closes the piece before it. -/
theorem piecesFrom_concat {b : UInt8} (hb : b.toNat < 0x80) {hand : Option Torn} (h : Open hand)
    (bytes : List UInt8) :
    piecesFrom hand (bytes ++ [b]) =
      (piecesFrom hand bytes).map Piece.closed ++ [.char (Char.ofNat b.toNat)] := by
  induction bytes generalizing hand with
  | nil =>
    -- a piece that was torn is closed by a byte that cannot go on with it
    cases hand with
    | none => simp [piecesFrom, step, begin, hb]
    | some t =>
      have hLow : ¬ (t.low ≤ b.toNat ∧ b.toNat ≤ t.high) := by
        have := h t rfl
        omega
      simp [piecesFrom, step, begin, hb, hLow, Piece.closed]
  | cons a bytes ih =>
    obtain ⟨hPieces, hOpen⟩ := step_closed hand a.toNat
    simp only [List.cons_append, piecesFrom]
    rw [ih hOpen, List.map_append, hPieces, List.append_assoc]

theorem toOption_map (f : α → β) (x : Except ε α) : (x.map f).toOption = x.toOption.map f := by
  cases x <;> rfl

/-- The text of closed pieces and one more character. -/
theorem toOption_charsOf_closed (index : Nat) (ps : List Piece) (c : Char) :
    (charsOf index (ps.map Piece.closed ++ [.char c])).toOption =
      (charsOf index ps).toOption.map (· ++ [c]) := by
  induction ps generalizing index with
  | nil => rfl
  -- every piece but a whole character is an error, whatever comes after it
  | cons p ps ih =>
    cases p with
    | char d =>
      simp only [List.map_cons, List.cons_append, Piece.closed, charsOf, toOption_map, ih,
        Option.map_map]
      rfl
    | malformed n => rfl
    | torn n => rfl

/-- An ASCII byte at the end stands for its character, and the bytes before it are a text or not
    as they are without it. -/
theorem toOption_decode_concat {b : UInt8} (hb : b.toNat < 0x80) (bytes : List UInt8) :
    (decode (bytes ++ [b])).toOption =
      (decode bytes).toOption.map (· ++ [Char.ofNat b.toNat]) := by
  rw [decode, pieces, piecesFrom_concat hb open_none, toOption_charsOf_closed, decode, pieces]

end Utf8

end RunnerPool
