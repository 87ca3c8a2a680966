/-
  Where the tokens of a text stand.

  * `Scans p cs ts q rest`: from the position `p`, before the characters `cs`, the
    scanner reads the tokens `ts` up to the position `q`, before the characters
    `rest`.  Every token is as long as can be;
  * `scanFrom_cases`: the scanner gets to the end of the text or to a fault;
    `scanFrom_eq_ok`: the text can be scanned if it is the end;
  * `Token.Fits`: a token stands in the text where it says, without blanks;
  * `Scans.endsAt`: after the last token there are only blanks.
-/
import Reckon.Token.Scan

namespace Reckon

open Text

/-- A word stands in a text with so many characters before it. -/
def Stands (text : List Char) (w : String) (p : Int) : Prop :=
  ∃ before after, text = before ++ (w.toList ++ after) ∧ p = before.length

/-- The tokens read from a position on, up to another. -/
inductive Scans : Nat → List Char → List Token → Nat → List Char → Prop
  | done {p cs} : Scans p cs [] p cs
  | blank {p c cs ts q rest} : isBlank c = true → Scans (p + 1) cs ts q rest →
      Scans p (c :: cs) ts q rest
  | token {p c cs t ts q rest} : isBlank c = false →
      Token.read p c (cs.takeWhile (continuesToken c)) = .ok t →
      Scans (p + 1 + (cs.takeWhile (continuesToken c)).length) (cs.dropWhile (continuesToken c)) ts
        q rest →
      Scans p (c :: cs) (t :: ts) q rest

variable {p q : Nat} {c : Char} {cs more rest text before : List Char} {t : Token}
  {ts : List Token} {e : Error} {l : Lexeme} {g : String}

/-! ## The scanner -/

theorem scanFrom_blank (hc : isBlank c = true) :
    Token.scanFrom p (c :: cs) = Token.scanFrom (p + 1) cs := by
  rw [Token.scanFrom, if_pos hc]

theorem scanFrom_token (hc : isBlank c = false) : Token.scanFrom p (c :: cs) =
    (Token.read p c (cs.takeWhile (continuesToken c))).bind fun t =>
      (Token.scanFrom (p + 1 + (cs.takeWhile (continuesToken c)).length)
        (cs.dropWhile (continuesToken c))).map fun ts => t :: ts := by
  rw [Token.scanFrom, if_neg (by simp [hc])]
  dsimp only
  rcases Token.read p c (cs.takeWhile (continuesToken c)) with e | t
  · rfl
  · rcases Token.scanFrom (p + 1 + (cs.takeWhile (continuesToken c)).length)
      (cs.dropWhile (continuesToken c)) with e | ts <;> rfl

/-- The scanner gets to the end of a text, or to a character at which no token can be read. -/
theorem scanFrom_cases (p : Nat) : ∀ cs : List Char,
    (∃ ts q, Token.scanFrom p cs = .ok ts ∧ Scans p cs ts q []) ∨
      ∃ ts q c rest e, Token.scanFrom p cs = .error e ∧ Scans p cs ts q (c :: rest) ∧
        isBlank c = false ∧ Token.read q c (rest.takeWhile (continuesToken c)) = .error e
  | [] => .inl ⟨[], p, by rw [Token.scanFrom], .done⟩
  | c :: cs => by
    cases hc : isBlank c with
    | true =>
      rw [scanFrom_blank hc]
      rcases scanFrom_cases (p + 1) cs with ⟨ts, q, h, hs⟩ | ⟨ts, q, c', rest, e, h, hs, hr⟩
      · exact .inl ⟨ts, q, h, .blank hc hs⟩
      · exact .inr ⟨ts, q, c', rest, e, h, .blank hc hs, hr⟩
    | false =>
      rw [scanFrom_token hc]
      rcases ht : Token.read p c (cs.takeWhile (continuesToken c)) with e | t
      · exact .inr ⟨[], p, c, cs, e, rfl, .done, hc, ht⟩
      · have hlen := (List.dropWhile_suffix (continuesToken c) (l := cs)).length_le
        rcases scanFrom_cases (p + 1 + (cs.takeWhile (continuesToken c)).length)
          (cs.dropWhile (continuesToken c)) with ⟨ts, q, h, hs⟩ | ⟨ts, q, c', rest, e, h, hs, hr⟩
        · exact .inl ⟨t :: ts, q, by rw [h]; rfl, .token hc ht hs⟩
        · exact .inr ⟨t :: ts, q, c', rest, e, by rw [h]; rfl, .token hc ht hs, hr⟩
termination_by cs => cs.length
decreasing_by all_goals simp only [List.length_cons]; omega

theorem Scans.scanFrom_eq (h : Scans p cs ts q rest) :
    rest = [] → Token.scanFrom p cs = .ok ts := by
  induction h with
  | done =>
    rintro rfl
    rw [Token.scanFrom]
  | blank hc _ ih =>
    intro hr
    rw [scanFrom_blank hc, ih hr]
  | token hc ht _ ih =>
    intro hr
    rw [scanFrom_token hc, ht, ih hr]
    rfl

/-- A text can be scanned iff the scanner gets to its end. -/
theorem scanFrom_eq_ok : Token.scanFrom p cs = .ok ts ↔ ∃ q, Scans p cs ts q [] := by
  constructor
  · intro h
    rcases scanFrom_cases p cs with ⟨us, q, hk, hs⟩ | ⟨us, q, c, rest, e, hk, -⟩
    · rw [hk] at h
      cases h
      exact ⟨q, hs⟩
    · rw [hk] at h
      cases h
  · rintro ⟨q, hs⟩
    exact hs.scanFrom_eq rfl

/-! ## Tokens -/

theorem isBlank_eq_false_of_isDigit (h : isDigit c = true) : isBlank c = false := by
  obtain ⟨v, hv⟩ := isDigit_iff.1 h
  rw [Bool.eq_false_iff, Ne, isBlank_iff, hv]
  simp

theorem isBlank_eq_false_of_isAlphanumeric (h : isAlphanumeric c = true) : isBlank c = false := by
  rw [Bool.eq_false_iff, Ne, isBlank_iff]
  intro hb
  simp [isAlphanumeric, hb] at h

/-- No token goes on with a blank. -/
theorem isBlank_of_continuesToken {first : Char} (h : continuesToken first c = true) :
    isBlank c = false := by
  unfold continuesToken continuesNumeral continuesWord at h
  split at h
  · rcases Bool.or_eq_true_iff.1 h with h | h
    · exact isBlank_eq_false_of_isDigit h
    · cases of_decide_eq_true h
      decide +kernel
  split at h
  · rcases Bool.or_eq_true_iff.1 h with h | h
    · exact isBlank_eq_false_of_isAlphanumeric h
    · cases of_decide_eq_true h
      decide +kernel
  · cases h

/-- No token has a blank inside. -/
theorem isBlank_of_mem_token (hc : isBlank c = false) :
    ∀ d ∈ c :: cs.takeWhile (continuesToken c), isBlank d = false := by
  intro d hd
  rcases List.mem_cons.1 hd with rfl | hd
  · exact hc
  · exact isBlank_of_continuesToken (List.all_eq_true.1 List.all_takeWhile d hd)

theorem sign?_eq_opening (h : Lexeme.sign? c = some .opening) : c = '(' := by
  unfold Lexeme.sign? at h
  grind

/-- The sign of an operator is its character, but for the other sign of division. -/
theorem sign?_eq_operator (h : Lexeme.sign? c = some (.operator g)) :
    g ∈ Operator.all.map Operator.glyph ∧ (g = String.singleton c ∨ g = "/" ∧ c = '÷') := by
  unfold Lexeme.sign? at h
  split at h
  · cases h
  split at h
  · cases h
  split at h
  · cases h
  split at h
  · rename_i hc
    cases h
    exact ⟨by decide, .inr ⟨rfl, hc⟩⟩
  split at h
  · rename_i hc
    cases h
    refine ⟨?_, .inl rfl⟩
    simp only [List.mem_cons, List.not_mem_nil, or_false] at hc
    rcases hc with rfl | rfl | rfl | rfl | rfl | rfl <;> decide
  · cases h

/-- A single sign does not go on. -/
theorem takeWhile_of_sign (hd : isDigit c = false) (hw : beginsWord c = false) :
    cs.takeWhile (continuesToken c) = [] := by
  cases cs with
  | nil => rfl
  | cons d cs =>
    have hn : continuesToken c d = false := by simp [continuesToken, hd, hw]
    rw [List.takeWhile_cons_of_neg (by simp [hn])]

/-- A token stands in a text where it says, and what it stands for shows in its characters. -/
structure Token.Fits (text : List Char) (t : Token) : Prop where
  stands : Stands text t.text t.spot
  ne_nil : t.text.toList ≠ []
  solid : ∀ c ∈ t.text.toList, isBlank c = false
  opening : t.lexeme = .opening → t.text = "("
  operator : ∀ g, t.lexeme = .operator g → g ∈ Operator.all.map Operator.glyph ∧
    (t.text = g ∨ g = "/" ∧ t.text = "÷")

/-- What a read token says of itself. -/
theorem read_eq_ok (h : Token.read p c (cs.takeWhile (continuesToken c)) = .ok t) :
    t.text = String.ofList (c :: cs.takeWhile (continuesToken c)) ∧ t.spot = p ∧
      (t.lexeme = .opening → t.text = "(") ∧
      ∀ g, t.lexeme = .operator g → g ∈ Operator.all.map Operator.glyph ∧
        (t.text = g ∨ g = "/" ∧ t.text = "÷") := by
  unfold Token.read at h
  split at h
  · split at h
    · cases h
      exact ⟨rfl, rfl, by rintro ⟨⟩, by rintro g ⟨⟩⟩
    · cases h
  rename_i hd
  split at h
  · cases h
    exact ⟨rfl, rfl, by rintro ⟨⟩, by rintro g ⟨⟩⟩
  rename_i hw
  split at h
  · rename_i l hl
    cases h
    have hm : cs.takeWhile (continuesToken c) = [] :=
      takeWhile_of_sign (Bool.eq_false_iff.2 hd) (Bool.eq_false_iff.2 hw)
    rw [hm]
    refine ⟨rfl, rfl, ?_, ?_⟩
    · rintro rfl
      rw [sign?_eq_opening hl]
    · rintro g rfl
      obtain ⟨hg, rfl | ⟨rfl, rfl⟩⟩ := sign?_eq_operator hl
      · exact ⟨hg, .inl rfl⟩
      · exact ⟨hg, .inr ⟨rfl, rfl⟩⟩
  · cases h

/-- What is wrong where no token can be read: a single character or a numeral. -/
theorem read_eq_error (h : Token.read p c (cs.takeWhile (continuesToken c)) = .error e) :
    e = .malformedNumber (String.ofList (c :: cs.takeWhile (continuesToken c))) p ∨
      e = .unexpectedCharacter (String.singleton c) p := by
  unfold Token.read at h
  split at h
  · split at h
    · cases h
    · cases h
      exact .inl rfl
  rename_i hd
  split at h
  · cases h
  rename_i hw
  split at h
  · cases h
  · cases h
    have hm : cs.takeWhile (continuesToken c) = [] :=
      takeWhile_of_sign (Bool.eq_false_iff.2 hd) (Bool.eq_false_iff.2 hw)
    rw [hm]
    exact .inr rfl

/-! ## Texts -/

/-- The scanner has gone over the characters before it. -/
theorem Scans.exists_append (h : Scans p cs ts q rest) :
    ∃ mid, cs = mid ++ rest ∧ q = p + mid.length := by
  induction h with
  | done => exact ⟨[], rfl, rfl⟩
  | @blank p c cs ts q rest _ _ ih =>
    obtain ⟨mid, rfl, rfl⟩ := ih
    exact ⟨c :: mid, rfl, by simp only [List.length_cons]; omega⟩
  | @token p c cs t ts q rest _ _ _ ih =>
    obtain ⟨mid, hm, rfl⟩ := ih
    refine ⟨c :: (cs.takeWhile (continuesToken c) ++ mid), ?_, ?_⟩
    · rw [List.cons_append, List.append_assoc, ← hm, List.takeWhile_append_dropWhile]
    · simp only [List.length_cons, List.length_append]
      omega

theorem stands_read (hb : before.length = p) :
    Stands (before ++ c :: cs) (String.ofList (c :: cs.takeWhile (continuesToken c))) p := by
  refine ⟨before, cs.dropWhile (continuesToken c), ?_, by rw [hb]⟩
  rw [String.toList_ofList, List.cons_append, List.takeWhile_append_dropWhile]

theorem Token.fits_of_read (hb : before.length = p) (hc : isBlank c = false)
    (h : Token.read p c (cs.takeWhile (continuesToken c)) = .ok t) :
    t.Fits (before ++ c :: cs) := by
  obtain ⟨ht, hp, ho, hg⟩ := read_eq_ok h
  refine ⟨?_, ?_, ?_, ho, hg⟩
  · rw [ht, hp]
    exact stands_read hb
  · simp [ht]
  · rw [ht, String.toList_ofList]
    exact isBlank_of_mem_token hc

/-- **Tokens stand in the text where they say.** -/
theorem Scans.fits (h : Scans p cs ts q rest) : ∀ before, before.length = p →
    ∀ t ∈ ts, t.Fits (before ++ cs) := by
  induction h with
  | done => simp
  | @blank p c cs ts q rest _ _ ih =>
    intro before hb t ht
    have := ih (before ++ [c]) (by simp [hb]) t ht
    simpa using this
  | @token p c cs t ts q rest hc hr _ ih =>
    intro before hb u hu
    rcases List.mem_cons.1 hu with rfl | hu
    · exact Token.fits_of_read hb hc hr
    · have := ih (before ++ c :: cs.takeWhile (continuesToken c))
        (by simp only [List.length_append, List.length_cons]; omega) u hu
      rwa [List.append_assoc, List.cons_append, List.takeWhile_append_dropWhile] at this

/-- The text of a token is as long as the characters it was read from. -/
theorem stop_of_read (h : Token.read p c (cs.takeWhile (continuesToken c)) = .ok t) :
    t.stop = (p + (c :: cs.takeWhile (continuesToken c)).length : Nat) := by
  obtain ⟨ht, hp, -, -⟩ := read_eq_ok h
  rw [Token.stop, ht, hp, String.length_ofList]
  simp

/-- After the last token there are only blanks, and before its end there are none. -/
theorem Scans.exists_end (h : Scans p cs ts q rest) :
    ∃ mid blanks, cs = mid ++ (blanks ++ rest) ∧ (∀ c ∈ blanks, isBlank c = true) ∧
      (ts = [] ∧ mid = [] ∨ ∃ t c, ts.getLast? = some t ∧ t.stop = (p + mid.length : Nat) ∧
        mid.getLast? = some c ∧ isBlank c = false) := by
  induction h with
  | done => exact ⟨[], [], rfl, by simp, .inl ⟨rfl, rfl⟩⟩
  | @blank p c cs ts q rest hc _ ih =>
    obtain ⟨mid, blanks, rfl, hb, ⟨rfl, rfl⟩ | ⟨t, d, ht, hs, hd, hn⟩⟩ := ih
    · exact ⟨[], c :: blanks, rfl, by simpa [hc] using hb, .inl ⟨rfl, rfl⟩⟩
    · refine ⟨c :: mid, blanks, rfl, hb, .inr ⟨t, d, ht, ?_, ?_, hn⟩⟩
      · rw [hs, List.length_cons]
        omega
      · rw [List.getLast?_cons, hd]
        rfl
  | @token p c cs t ts q rest hc hr _ ih =>
    obtain ⟨mid, blanks, hm, hb, he⟩ := ih
    refine ⟨c :: cs.takeWhile (continuesToken c) ++ mid, blanks, ?_, hb, .inr ?_⟩
    · rw [List.append_assoc, ← hm, List.cons_append, List.takeWhile_append_dropWhile]
    rcases he with ⟨rfl, rfl⟩ | ⟨t', d, ht, hs, hd, hn⟩
    · have hl := List.getLast?_eq_some_getLast
        (List.cons_ne_nil c (cs.takeWhile (continuesToken c)))
      rw [List.append_nil]
      exact ⟨t, _, rfl, stop_of_read hr, hl, isBlank_of_mem_token hc _ (List.mem_of_getLast? hl)⟩
    · refine ⟨t', d, ?_, ?_, ?_, hn⟩
      · rw [List.getLast?_cons, ht]
        rfl
      · rw [hs]
        simp only [List.length_append, List.length_cons]
        omega
      · rw [List.getLast?_append, hd]
        rfl

/-- A position after which a text holds blanks only, the first such. -/
def EndsAt (text : List Char) (p : Int) : Prop :=
  ∃ before blanks, text = before ++ blanks ∧ p = before.length ∧
    (∀ c ∈ blanks, isBlank c = true) ∧ ∀ c ∈ before.getLast?, isBlank c = false

/-- The last token ends where only blanks are left. -/
theorem Scans.endsAt (h : Scans 0 cs ts q []) : EndsAt cs (Token.endOf ts) := by
  obtain ⟨mid, blanks, hm, hb, he⟩ := h.exists_end
  rw [List.append_nil] at hm
  rcases he with ⟨rfl, rfl⟩ | ⟨t, c, ht, hs, hc, hn⟩
  · exact ⟨[], blanks, hm, rfl, hb, by simp⟩
  · refine ⟨mid, blanks, hm, ?_, hb, ?_⟩
    · rw [Token.endOf, ht]
      simpa using hs
    · rw [hc]
      rintro _ ⟨⟩
      exact hn

/-- Only in a blank text is the first position the end. -/
theorem EndsAt.eq_zero_iff {p : Int} (h : EndsAt text p) :
    p = 0 ↔ ∀ c ∈ text, isBlank c = true := by
  obtain ⟨before, blanks, rfl, rfl, hb, hn⟩ := h
  constructor
  · intro h0
    have : before = [] := List.length_eq_zero_iff.1 (by omega)
    rw [this]
    exact hb
  · intro ht
    cases hl : before.getLast? with
    | none => simp [List.getLast?_eq_none_iff.1 hl]
    | some c =>
      have hc := ht c (List.mem_append_left _ (List.mem_of_getLast? hl))
      rw [hn c hl] at hc
      cases hc

end Reckon
