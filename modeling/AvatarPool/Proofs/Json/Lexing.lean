import AvatarPool.Proofs.Json.Grammar
import AvatarPool.Proofs.Json.Printed

/-! # Texts and their tokens

Reading takes a text apart into tokens exactly as the grammar lays them out.  What is read is laid
out so in the text, and tokens that are laid out in a text are those that are read, provided that no
number runs into the next token, as none does in a value.

Each scanner has two lemmas, and they go through the levels of the grammar from below.
`scan…_append` says that a text laid out by the grammar is scanned, whatever follows it, as long as
that does not carry it on; `exists_of_scan…` says that what has been scanned was laid out so.
Together they make `Value.isText_iff`, by which later proofs speak of tokens and never of
characters. -/

namespace AvatarPool.Json

/-! ## Digits -/

/-- Where no number goes on.  A digit, a point or an exponent would be read as part of the number
before it. -/
def Stops (cs : List Char) : Prop :=
  ∀ c ∈ cs.head?, ¬ isDigit c ∧ c ≠ '.' ∧ c ≠ 'e' ∧ c ≠ 'E'

/-- Digits are read up to what is none. -/
theorem scanDigits_append {ds : List Nat} {cs rest : List Char} (h : DigitsText ds cs)
    (hrest : ∀ c ∈ rest.head?, ¬ isDigit c) : scanDigits (cs ++ rest) = (ds, rest) := by
  have hstop : rest.takeWhile isDigit = [] ∧ rest.dropWhile isDigit = rest := by
    cases rest with
    | nil => exact ⟨rfl, rfl⟩
    | cons c rest =>
        have hc := hrest c rfl
        exact ⟨List.takeWhile_cons_of_neg hc, List.dropWhile_cons_of_neg hc⟩
  rw [scanDigits, List.takeWhile_append_of_pos h.digits, List.dropWhile_append_of_pos h.digits,
    hstop.1, hstop.2, List.append_nil, h.values]

/-- What has been read is a row of digits, if it is anything. -/
theorem exists_of_scanDigits {cs rest : List Char} {ds : List Nat} (h : scanDigits cs = (ds, rest))
    (hds : ds ≠ []) : ∃ w, DigitsText ds w ∧ cs = w ++ rest := by
  obtain ⟨hvalues, hrest⟩ := Prod.mk.inj h
  refine ⟨cs.takeWhile isDigit, ⟨?_, List.all_eq_true.mp List.all_takeWhile, hvalues⟩, ?_⟩
  · rintro hnil
    rw [hnil] at hvalues
    exact hds hvalues.symm
  · rw [← hrest]
    exact (List.takeWhile_append_dropWhile).symm

theorem DigitsText.ne_nil {ds : List Nat} {cs : List Char} (h : DigitsText ds cs) : ds ≠ [] := by
  rw [← h.values]
  simpa using h.nonempty

/-- A row of digits starts with one. -/
theorem DigitsText.isDigit_head {ds : List Nat} {cs : List Char} (h : DigitsText ds cs)
    (rest : List Char) : ∀ c ∈ (cs ++ rest).head?, isDigit c := by
  obtain ⟨d, cs', rfl⟩ := List.exists_cons_of_ne_nil h.nonempty
  rintro _ ⟨rfl⟩
  exact h.digits d List.mem_cons_self

/-! ## Numbers -/

/-- A fraction is read where it stands, and none where there is no point. -/
theorem scanFraction_append {ds : List Nat} {f rest : List Char} (h : FractionText ds f)
    (hrest : ∀ c ∈ rest.head?, ¬ isDigit c ∧ c ≠ '.') :
    scanFraction (f ++ rest) = some (ds, rest) := by
  cases h with
  | none =>
      rw [List.nil_append, scanFraction.eq_def]
      split
      · exact absurd rfl (hrest _ rfl).2
      · rfl
  | point h =>
      rw [List.cons_append, scanFraction, scanDigits_append h fun c hc => (hrest c hc).1]
      split
      · rename_i heq
        exact absurd (congrArg Prod.fst heq) h.ne_nil
      · rename_i heq
        rw [heq]

/-- Whatever has been read as a fraction is one. -/
theorem exists_of_scanFraction {cs rest : List Char} {ds : List Nat}
    (h : scanFraction cs = some (ds, rest)) : ∃ f, FractionText ds f ∧ cs = f ++ rest := by
  unfold scanFraction at h
  split at h
  · split at h
    · cases h
    · rename_i hne heq
      cases h
      obtain ⟨w, hw, rfl⟩ := exists_of_scanDigits heq hne
      exact ⟨_, .point hw, rfl⟩
  · cases h
    exact ⟨[], .none, rfl⟩

/-- A sign is read where it stands, and none before a digit. -/
theorem scanSign_append {positive : Bool} {s cs : List Char} (h : SignText positive s)
    (hcs : ∀ c ∈ cs.head?, isDigit c) : scanSign (s ++ cs) = (positive, cs) := by
  cases h with
  | plus | minus => rfl
  | none =>
      rw [List.nil_append, scanSign.eq_def]
      split
      · exact absurd (hcs _ rfl) (by decide)
      · exact absurd (hcs _ rfl) (by decide)
      · rfl

/-- Reading a sign never fails. -/
theorem exists_of_scanSign (cs : List Char) :
    ∃ s, SignText (scanSign cs).1 s ∧ cs = s ++ (scanSign cs).2 := by
  unfold scanSign
  split
  · exact ⟨_, .plus, rfl⟩
  · exact ⟨_, .minus, rfl⟩
  · exact ⟨_, .none, rfl⟩

/-- An exponent is read where it stands, and none where there is no letter for it. -/
theorem scanExponent_append {exponent : Option (Bool × List Nat)} {e rest : List Char}
    (h : ExponentText exponent e) (hrest : Stops rest) :
    scanExponent (e ++ rest) = some (exponent, rest) := by
  cases h with
  | none =>
      cases rest with
      | nil => rfl
      | cons c rest =>
          have hc := hrest c rfl
          exact if_neg (not_or.mpr hc.2.2)
  | power he hs h =>
      rw [List.cons_append, List.append_assoc, scanExponent, if_pos he,
        scanSign_append hs (h.isDigit_head rest), scanDigits_append h fun c hc => (hrest c hc).1]
      split
      · rename_i heq
        exact absurd (congrArg Prod.fst heq) h.ne_nil
      · rename_i heq
        cases heq
        rfl

/-- Whatever has been read as an exponent is one. -/
theorem exists_of_scanExponent {cs rest : List Char} {exponent : Option (Bool × List Nat)}
    (h : scanExponent cs = some (exponent, rest)) :
    ∃ e, ExponentText exponent e ∧ cs = e ++ rest := by
  cases cs with
  | nil =>
      cases h
      exact ⟨[], .none, rfl⟩
  | cons c cs =>
      rw [scanExponent] at h
      split at h
      · rename_i hc
        split at h
        · cases h
        · rename_i hne heq
          cases h
          obtain ⟨s, hs, hcs⟩ := exists_of_scanSign cs
          obtain ⟨w, hw, hdigits⟩ := exists_of_scanDigits heq hne
          refine ⟨_, .power hc hs hw, ?_⟩
          rw [List.cons_append, List.append_assoc, ← hdigits, ← hcs]
      · cases h
        exact ⟨[], .none, rfl⟩

/-- **A number is read as it is written**, where it does not go on. -/
theorem scanNumeral_append {negative : Bool} {n : Numeral} {cs rest : List Char}
    (h : NumeralText negative n cs) (hrest : Stops rest) :
    scanNumeral negative (cs ++ rest) = some (n, rest) := by
  -- Each of the three parts is read up to the next one; so what follows it must not carry it on.
  obtain @⟨whole, fraction, exponent, w, f, e, hw, hzero, hf, he⟩ := h
  have hafter : ∀ c ∈ (e ++ rest).head?, ¬ isDigit c ∧ c ≠ '.' := by
    cases he with
    | none => exact fun c hc => ⟨(hrest c hc).1, (hrest c hc).2.1⟩
    | power he =>
        rintro c ⟨rfl⟩
        rcases he with rfl | rfl <;> decide
  have hwhole : ∀ c ∈ (f ++ (e ++ rest)).head?, ¬ isDigit c := by
    cases hf with
    | none => exact fun c hc => (hafter c hc).1
    | point =>
        rintro c ⟨rfl⟩
        decide
  rw [List.append_assoc, List.append_assoc, scanNumeral, scanDigits_append hw hwhole]
  split
  · rename_i heq
    exact absurd (congrArg Prod.fst heq) hw.ne_nil
  · rename_i heq
    exact absurd (hzero _ (congrArg Prod.fst heq)) (List.cons_ne_nil _ _)
  · rename_i heq
    cases heq
    rw [scanFraction_append hf hafter]
    dsimp only
    rw [scanExponent_append he hrest]

/-- Whatever has been read as a number is one, without superfluous zeros in front. -/
theorem exists_of_scanNumeral {negative : Bool} {n : Numeral} {cs rest : List Char}
    (h : scanNumeral negative cs = some (n, rest)) :
    ∃ w, NumeralText negative n w ∧ cs = w ++ rest := by
  unfold scanNumeral at h
  split at h
  · cases h
  · cases h
  · rename_i whole after hnil hzero hdigits
    split at h
    · cases h
    · rename_i hfraction
      split at h
      · cases h
      · rename_i hexponent
        cases h
        obtain ⟨w, hw, rfl⟩ := exists_of_scanDigits hdigits hnil
        obtain ⟨f, hf, rfl⟩ := exists_of_scanFraction hfraction
        obtain ⟨e, he, rfl⟩ := exists_of_scanExponent hexponent
        refine ⟨_, .mk hw ?_ hf he, by simp⟩
        rintro (_ | ⟨d, ds⟩) rfl
        · rfl
        · exact (hzero d ds rfl).elim

/-! ## Strings -/

/-- A piece of a string is taken off whole, be it a character or an escape. -/
theorem scanText_piece {p : Piece} {w : List Char} (h : PieceText p w) (done : List Piece)
    (rest : List Char) : scanText done (w ++ rest) = scanText (p :: done) rest := by
  cases h with
  | plain hquote hslash hc => exact scanText_plain hquote hslash hc done rest
  | letter h =>
      unfold unescape? at h
      split at h <;> cases h <;> rfl
  | unit h => simp only [List.cons_append, List.nil_append, scanText, h]

/-- **A string is read as it is written.** -/
theorem scanText_append {ps : List Piece} {cs : List Char} (h : PiecesText ps cs)
    (done : List Piece) (rest : List Char) :
    scanText done (cs ++ '"' :: rest) = some (done.reverse ++ ps, rest) := by
  induction h generalizing done with
  | nil => simp [scanText]
  | cons hp hps ih =>
      rw [List.append_assoc, scanText_piece hp, ih, List.reverse_cons, List.append_assoc,
        List.singleton_append]

/-- Whatever has been read as a string is one, up to a closing quote. -/
theorem exists_of_scanText {done ps : List Piece} {cs rest : List Char}
    (h : scanText done cs = some (ps, rest)) :
    ∃ qs w, PiecesText qs w ∧ ps = done.reverse ++ qs ∧ cs = w ++ '"' :: rest := by
  -- One piece more in front, whichever it is; the scanner collects pieces in reverse.
  have hcons : ∀ {done : List Piece} {p : Piece} {v cs : List Char}, PieceText p v →
      (∃ qs w, PiecesText qs w ∧ ps = (p :: done).reverse ++ qs ∧ cs = w ++ '"' :: rest) →
      ∃ qs w, PiecesText qs w ∧ ps = done.reverse ++ qs ∧ v ++ cs = w ++ '"' :: rest := by
    rintro done p v cs hp ⟨qs, w, hqs, rfl, rfl⟩
    exact ⟨p :: qs, v ++ w, .cons hp hqs, by simp, by simp⟩
  -- By the cases of the scanner: it has come to the end, has failed, or has taken one more piece.
  fun_induction scanText done cs with
  | case1 => cases h
  | case2 done rest' =>
      cases h
      exact ⟨[], [], .nil, (List.append_nil _).symm, rfl⟩
  | case3 done a b c d cs n hn ih => exact hcons (.unit hn) (ih h)
  | case4 => cases h
  | case5 done e cs hu c hc ih => exact hcons (.letter hc) (ih h)
  | case6 => cases h
  | case7 => cases h
  | case8 done c cs hquote _ _ hc ih =>
      obtain ⟨hslash, hlow⟩ := not_or.mp hc
      exact hcons (.plain (fun heq => hquote heq) hslash hlow) (ih h)

/-! ## Tokens -/

/-- A word has been read letter by letter. -/
theorem eq_of_afterWord {word cs rest : List Char} (h : afterWord word cs = some rest) :
    cs = word ++ rest := by
  fun_induction afterWord word cs with
  | case1 => exact Option.some.inj h
  | case2 w ws cs ih => rw [ih h, List.cons_append]
  | case3 => cases h
  | case4 => cases h

/-- A token that is one word is followed by what comes after the word. -/
theorem eq_of_map_afterWord {word cs rest : List Char} {t t' : Token}
    (h : (afterWord word cs).map (fun rest => (t, rest)) = some (t', rest)) :
    t' = t ∧ cs = word ++ rest := by
  obtain ⟨_, hword, heq⟩ := Option.map_eq_some_iff.mp h
  cases heq
  exact ⟨rfl, eq_of_afterWord hword⟩

theorem scanToken_minus (rest : List Char) : scanToken '-' rest =
    (scanNumeral true rest).map fun (n, rest) => (Token.number n, rest) := rfl

theorem not_isBlank_of_isDigit {c : Char} (h : isDigit c) : ¬ isBlank c := by
  unfold isBlank
  simp only [Bool.or_eq_true, beq_iff_eq]
  rintro (((rfl | rfl) | rfl) | rfl) <;> exact absurd h (by decide)

/-- **A token is read as it is written**, if it is no number that goes on. -/
theorem scanToken_append {t : Token} {w cs : List Char} (h : TokenText t w)
    (hstops : ∀ n, t = .number n → Stops cs) :
    ∃ c w', w = c :: w' ∧ ¬ isBlank c ∧ scanToken c (w' ++ cs) = some (t, cs) := by
  cases h with
  | openBrace | closeBrace | openBracket | closeBracket | comma | colon | null | yes | no =>
      exact ⟨_, _, rfl, by decide, rfl⟩
  | number h =>
      have hscan := scanNumeral_append h (hstops _ rfl)
      obtain @⟨whole, fraction, exponent, w, f, e, hw, hzero, hf, he⟩ := h
      obtain ⟨c, w', rfl⟩ := List.exists_cons_of_ne_nil hw.nonempty
      have hdigit : isDigit c := hw.digits c List.mem_cons_self
      refine ⟨c, _, rfl, not_isBlank_of_isDigit hdigit, ?_⟩
      rw [scanToken_of_isDigit hdigit]
      exact congrArg (Option.map _) hscan
  | minus h =>
      refine ⟨'-', _, rfl, by decide, ?_⟩
      rw [scanToken_minus, scanNumeral_append h (hstops _ rfl)]
      rfl
  | text h =>
      refine ⟨'"', _, rfl, by decide, ?_⟩
      show (scanText [] _).map _ = _
      rw [List.append_assoc, List.singleton_append, scanText_append h]
      rfl

/-- Whatever has been read as a token is one. -/
theorem exists_of_scanToken {c : Char} {cs rest : List Char} {t : Token}
    (h : scanToken c cs = some (t, rest)) : ∃ w, TokenText t w ∧ c :: cs = w ++ rest := by
  unfold scanToken at h
  -- The cases are those of the first character: punctuation, a quote, a letter of a word, a minus,
  -- or a digit.
  split at h
  case h_7 =>
    obtain ⟨⟨ps, rest⟩, hp, heq⟩ := Option.map_eq_some_iff.mp h
    cases heq
    obtain ⟨qs, w, hqs, rfl, rfl⟩ := exists_of_scanText hp
    exact ⟨_, .text hqs, by simp⟩
  case h_8 =>
    obtain ⟨rfl, rfl⟩ := eq_of_map_afterWord h
    exact ⟨_, .null, rfl⟩
  case h_9 =>
    obtain ⟨rfl, rfl⟩ := eq_of_map_afterWord h
    exact ⟨_, .yes, rfl⟩
  case h_10 =>
    obtain ⟨rfl, rfl⟩ := eq_of_map_afterWord h
    exact ⟨_, .no, rfl⟩
  case h_11 =>
    obtain ⟨_, hp, heq⟩ := Option.map_eq_some_iff.mp h
    cases heq
    obtain ⟨w, hw, rfl⟩ := exists_of_scanNumeral hp
    exact ⟨_, .minus hw, rfl⟩
  case h_12 =>
    split at h
    · obtain ⟨_, hp, heq⟩ := Option.map_eq_some_iff.mp h
      cases heq
      obtain ⟨w, hw, hcs⟩ := exists_of_scanNumeral hp
      exact ⟨_, .number hw, hcs⟩
    · cases h
  case h_1 => cases h; exact ⟨_, .openBrace, rfl⟩
  case h_2 => cases h; exact ⟨_, .closeBrace, rfl⟩
  case h_3 => cases h; exact ⟨_, .openBracket, rfl⟩
  case h_4 => cases h; exact ⟨_, .closeBracket, rfl⟩
  case h_5 => cases h; exact ⟨_, .comma, rfl⟩
  case h_6 => cases h; exact ⟨_, .colon, rfl⟩

/-! ## Texts -/

/-- What stands behind a number does not carry it on: blanks, punctuation or nothing. -/
theorem Layout.stops {ts : List Token} {cs : List Char} (h : Layout ts cs)
    (hends : ∀ t ∈ ts.head?, t.EndsNumber) : Stops cs := by
  cases h with
  | nil => exact nofun
  | blank hc =>
      rintro c ⟨rfl⟩
      unfold isBlank at hc
      simp only [Bool.or_eq_true, beq_iff_eq] at hc
      rcases hc with ((rfl | rfl) | rfl) | rfl <;> decide
  | token ht =>
      have hpunctuation := hends _ rfl
      cases ht with
      | comma | closeBracket | closeBrace =>
          rintro c ⟨rfl⟩
          decide
      | _ => exact hpunctuation.elim

/-- Tokens are read off a layout one by one, blanks between them being passed over. -/
theorem tokensOnto_of_layout {ts : List Token} {cs : List Char} (h : Layout ts cs)
    (hapart : Apart ts) (done : List Token) : tokensOnto done cs = done.reverse ++ ts := by
  -- By induction on the layout, with the tokens read so far.
  induction h generalizing done with
  | nil => rw [tokensOnto, List.append_nil]
  | blank hc h ih => rw [tokensOnto, if_pos hc, ih hapart]
  | @token t ts w cs ht h ih =>
      -- After a number, what comes next does not carry it on.
      have hrest : Apart ts ∧ ∀ n, t = .number n → Stops cs := by
        cases t with
        | number n => exact ⟨hapart.2, fun _ _ => h.stops hapart.1⟩
        | _ => exact ⟨hapart, fun n hn => by cases hn⟩
      obtain ⟨c, w', rfl, hblank, hscan⟩ := scanToken_append ht hrest.2
      rw [List.cons_append, tokensOnto_of_scanToken hblank hscan, ih hrest.1, List.reverse_cons,
        List.append_assoc, List.singleton_append]

/-- **Laid out tokens are read.** -/
theorem tokens_of_layout {ts : List Token} {text : String} (h : Layout ts text.toList)
    (hapart : Apart ts) : tokens text = ts :=
  tokensOnto_of_layout h hapart []

/-- Reading goes on even where the text is none, and then yields a wrong token; up to there the text
is laid out. -/
theorem exists_layout_of_tokensOnto (done : List Token) (cs : List Char) :
    ∃ ts, tokensOnto done cs = done.reverse ++ ts ∧ (.wrong ∉ ts → Layout ts cs) := by
  fun_induction tokensOnto done cs with
  | case1 done => exact ⟨[], (List.append_nil _).symm, fun _ => .nil⟩
  | case2 done c rest hc ih =>
      obtain ⟨ts, hts, h⟩ := ih
      exact ⟨ts, hts, fun hwrong => .blank hc (h hwrong)⟩
  | case3 done c rest hc t after hscan ih =>
      obtain ⟨ts, hts, h⟩ := ih
      obtain ⟨w, hw, hcs⟩ := exists_of_scanToken hscan
      refine ⟨t :: ts, by rw [hts]; simp, fun hwrong => ?_⟩
      rw [hcs]
      exact .token hw (h fun hmem => hwrong (List.mem_cons_of_mem t hmem))
  | case4 done c rest hc hscan => exact ⟨[.wrong], by simp, fun hwrong => by simp at hwrong⟩

/-- **What is read is laid out** in the text, unless the text stops being one on the way. -/
theorem layout_tokens {text : String} (h : .wrong ∉ tokens text) :
    Layout (tokens text) text.toList := by
  obtain ⟨ts, hts, hlayout⟩ := exists_layout_of_tokensOnto [] text.toList
  have heq : tokens text = ts := hts
  exact heq ▸ hlayout (heq ▸ h)

/-- **The texts of a value** are those that are read as its tokens. -/
theorem Value.isText_iff {v : Value} {text : String} :
    v.IsText text ↔ Json.tokens text = v.tokens := by
  constructor
  · intro h
    have hapart : Apart (v.tokens ++ []) := v.apart_tokens nofun trivial
    rw [List.append_nil] at hapart
    exact tokens_of_layout h hapart
  · intro h
    rw [Value.IsText, ← h]
    exact layout_tokens (h ▸ v.wrong_notMem_tokens)

end AvatarPool.Json
