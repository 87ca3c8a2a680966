/-
  The names of definitions and the words of expressions.

  The command line tells a name by the identifier rule of Unicode, an expression by its
  own: a letter or underscore and then letters, numerals and underscores.  Either rule
  admits characters that the other does not, so that a defined name need not be a word.

  * `CodeSpans.Apart`: tables of characters without a common one;
  * `class_of_marks`, `class_of_leadingNumerals`: what the characters of a name that are no
    letters are for the scanner;
  * `FirstOdd`: where a text has its first character of the wrong kind;
  * `isWord_iff_of_isName`, `isName_iff_of_isWord`: what each rule admits beyond the other;
  * `scan_of_firstOdd`: what scanning a name comes to that is no word;
  * `define_usable`: what the command line makes of a definition, and an expression of its
    name.
-/
import Mathlib.Data.List.Chain
import Reckon.Proofs.Outcomes
import Reckon.Proofs.Sessions
import Reckon.Proofs.Words
import Reckon.Text.Name

namespace Reckon.Text

/-! ## Tables -/

namespace CodeSpans

/-- No character is in both tables. -/
def Apart (t u : CodeSpans) : Prop := ∀ c, t.has c = true → u.has c = false

/-- Each span ends before the next begins. -/
def Rising (t : CodeSpans) : Prop := t.IsChain fun s v => s.1 ≤ s.2 ∧ s.2 < v.1

instance (t : CodeSpans) : Decidable t.Rising := inferInstanceAs (Decidable (List.IsChain _ _))

/-- A walk along two tables: at each span of the first, those of the second that end before it are
    left behind, and the next one must begin after it. -/
def keepsApart : CodeSpans → CodeSpans → Bool
  | [], _ => true
  | s :: t, u =>
    let ahead := u.dropWhile (·.2 < s.1)
    ahead.head?.all (s.2 < ·.1) && keepsApart t ahead

variable {s v : Nat × Nat} {t u : CodeSpans}

theorem Rising.pairwise (h : t.Rising) : t.Pairwise fun s v => s.1 ≤ s.2 ∧ s.2 < v.1 := by
  have htrans : IsTrans (Nat × Nat) fun s v => s.1 ≤ s.2 ∧ s.2 < v.1 := ⟨fun _ _ _ h h' => by omega⟩
  exact List.isChain_iff_pairwise.1 h

/-- The spans of rising tables are apart if a walk along them says so. -/
theorem lt_or_lt_of_keepsApart (ht : t.Rising) (hu : u.Rising) (h : t.keepsApart u = true) :
    ∀ s ∈ t, ∀ v ∈ u, s.2 < v.1 ∨ v.2 < s.1 := by
  induction t generalizing u with
  | nil => simp
  | cons r t ih =>
    rw [keepsApart, Bool.and_eq_true] at h
    obtain ⟨hfirst, hwalk⟩ := h
    obtain ⟨hr, -⟩ := List.pairwise_cons.1 ht.pairwise
    have hahead : Rising (u.dropWhile (·.2 < r.1)) := hu.suffix (List.dropWhile_suffix _)
    have ih := ih ht.tail hahead hwalk
    intro s hs v hv
    rw [← List.takeWhile_append_dropWhile (p := (·.2 < r.1)) (l := u), List.mem_append] at hv
    rcases hv with hv | hv
    · -- left behind at `r`, so before `r` and all that follows
      have hbehind : v.2 < r.1 := of_decide_eq_true (List.all_eq_true.1 List.all_takeWhile v hv)
      rcases List.mem_cons.1 hs with rfl | hs
      · exact .inr hbehind
      · have := hr s hs
        omega
    rcases List.mem_cons.1 hs with rfl | hs
    · obtain ⟨w, ws, hw⟩ := List.exists_cons_of_ne_nil (List.ne_nil_of_mem hv)
      rw [hw] at hv hfirst hahead
      have hw : s.2 < w.1 := of_decide_eq_true hfirst
      rcases List.mem_cons.1 hv with rfl | hv
      · exact .inl hw
      · have := (List.pairwise_cons.1 hahead.pairwise).1 v hv
        omega
    · exact ih s hs v hv

theorem Apart.of_keepsApart (h : t.Rising ∧ u.Rising ∧ t.keepsApart u = true) : t.Apart u := by
  intro c hc
  rw [Bool.eq_false_iff, Ne, has_iff]
  rintro ⟨v, hv, hv'⟩
  obtain ⟨s, hs, hs'⟩ := has_iff.1 hc
  have := lt_or_lt_of_keepsApart h.1 h.2.1 h.2.2 s hs v hv
  omega

/-- A table of some of the characters of another. -/
theorem has_of_has (h : ∀ s ∈ t, ∃ v ∈ u, v.1 ≤ s.1 ∧ s.2 ≤ v.2) {c : Char} (hc : t.has c = true) :
    u.has c = true := by
  obtain ⟨s, hs, hs'⟩ := has_iff.1 hc
  obtain ⟨v, hv, hv'⟩ := h s hs
  exact has_iff.2 ⟨v, hv, by omega⟩

end CodeSpans

/-! ## The characters of names -/

/-- The decimal digits. -/
def digitSpans : CodeSpans := digitZeros.map fun z => (z, z + 9)

variable {c : Char}

theorem digitValue?_eq_none (h : digitSpans.has c = false) : digitValue? c = none := by
  unfold digitValue?
  rw [Option.map_eq_none_iff, List.find?_eq_none]
  intro z hz hc
  refine Bool.eq_false_iff.1 h (CodeSpans.has_iff.2 ⟨_, List.mem_map_of_mem hz, ?_⟩)
  simp only [Bool.and_eq_true, decide_eq_true_eq] at hc
  omega

/-- The signs of expressions. -/
def signSpans : CodeSpans :=
  [(0x25, 0x25), (0x28, 0x2d), (0x2f, 0x2f), (0x5e, 0x5e), (0xf7, 0xf7)]

theorem signSpans_of_sign {l : Lexeme} (h : (c, l) ∈ signs) : signSpans.has c = true := by
  have hall : ∀ e ∈ signs, signSpans.has e.1 = true := by decide +kernel
  exact hall _ h

theorem marks_apart : ∀ t ∈ [blanks, signSpans, digitSpans, letters, leadingNumerals, innerNumerals,
    looseNumerals], marks.Apart t := by
  have h : ∀ t ∈ [blanks, signSpans, digitSpans, letters, leadingNumerals, innerNumerals,
      looseNumerals], marks.Rising ∧ t.Rising ∧ marks.keepsApart t = true := by decide +kernel
  exact fun t ht => .of_keepsApart (h t ht)

theorem leadingNumerals_apart : ∀ t ∈ [blanks, signSpans, digitSpans, letters],
    leadingNumerals.Apart t := by
  have h : ∀ t ∈ [blanks, signSpans, digitSpans, letters],
      leadingNumerals.Rising ∧ t.Rising ∧ leadingNumerals.keepsApart t = true := by decide +kernel
  exact fun t ht => .of_keepsApart (h t ht)

theorem marks_of_leadingSigns (h : leadingSigns.has c = true) : marks.has c = true :=
  CodeSpans.has_of_has (by decide +kernel) h

/-- A mark is neither blank nor a letter, a digit or another numeral. -/
theorem class_of_marks (h : marks.has c = true) : CharClass.of c = .other := by
  have hapart := fun t ht => marks_apart t ht c h
  simp only [List.forall_mem_cons] at hapart
  obtain ⟨hblank, -, hdigit, hletter, hleading, hinner, hloose, -⟩ := hapart
  simp [CharClass.of, isNumeral, digitValue?_eq_none hdigit, hblank, hletter, hleading, hinner,
    hloose]

theorem class_of_leadingNumerals (h : leadingNumerals.has c = true) :
    CharClass.of c = .numeral := by
  have hapart := fun t ht => leadingNumerals_apart t ht c h
  simp only [List.forall_mem_cons] at hapart
  obtain ⟨hblank, -, hdigit, hletter, -⟩ := hapart
  simp [CharClass.of, isNumeral, digitValue?_eq_none hdigit, hblank, hletter, h]

/-- Characters that begin names and no words. -/
def beginsNameOnly (c : Char) : Bool := leadingNumerals.has c || (leadingSigns.has c && c ≠ '_')

/-- Characters that stand behind in names and in no words. -/
def continuesNameOnly (c : Char) : Bool := marks.has c && c ≠ '_'

/-- Characters that begin words and no names. -/
def beginsWordOnly (c : Char) : Bool := strayLetters.has c

/-- Characters that stand behind in words and in no names. -/
def continuesWordOnly (c : Char) : Bool := barredLetters.has c || looseNumerals.has c

theorem leading_of_isLetter (h : isLetter c = true) :
    leadingNumerals.has c = false ∧ leadingSigns.has c = false := by
  have hl : CharClass.of c = .letter := of_decide_eq_true h
  refine ⟨Bool.eq_false_iff.2 fun hn => ?_, Bool.eq_false_iff.2 fun hs => ?_⟩
  · cases hl.symm.trans (class_of_leadingNumerals hn)
  · cases hl.symm.trans (class_of_marks (marks_of_leadingSigns hs))

theorem marks_of_isAlphanumeric (h : isAlphanumeric c = true) : marks.has c = false := by
  refine Bool.eq_false_iff.2 fun hm => ?_
  simp [isAlphanumeric, class_of_marks hm] at h

/-- **What begins a name begins a word**, other characters aside. -/
theorem beginsWord_iff_of_beginsName (h : beginsName c = true) :
    beginsWord c = true ↔ beginsNameOnly c = false := by
  by_cases hl : isLetter c = true
  · simp [beginsWord, beginsNameOnly, hl, leading_of_isLetter hl]
  by_cases hc : c = '_'
  · subst hc
    decide +kernel
  · have hn : leadingNumerals.has c = true ∨ leadingSigns.has c = true := by
      simpa [beginsName, hl] using h
    rcases hn with hn | hn <;> simp [beginsWord, beginsNameOnly, hl, hc, hn]

/-- **What begins a word begins a name**, other characters aside. -/
theorem beginsName_iff_of_beginsWord (h : beginsWord c = true) :
    beginsName c = true ↔ beginsWordOnly c = false := by
  rcases beginsWord_iff.1 h with hl | rfl
  · simp [beginsName, beginsWordOnly, hl, leading_of_isLetter hl]
  · decide +kernel

theorem continuesWord_iff_of_continuesName (h : continuesName c = true) :
    continuesWord c = true ↔ continuesNameOnly c = false := by
  by_cases ha : isAlphanumeric c = true
  · simp [continuesWord, continuesNameOnly, ha, marks_of_isAlphanumeric ha]
  · have hm : marks.has c = true := by simpa [continuesName, ha] using h
    simp [continuesWord, continuesNameOnly, ha, hm]

theorem continuesName_iff_of_continuesWord (h : continuesWord c = true) :
    continuesName c = true ↔ continuesWordOnly c = false := by
  rcases Bool.or_eq_true_iff.1 h with ha | hc
  · simp [continuesName, continuesWordOnly, ha, marks_of_isAlphanumeric ha]
  · cases of_decide_eq_true hc
    decide +kernel

end Reckon.Text

namespace Reckon

open Text

/-! ## Names and words -/

/-- A text that is scanned as one word. -/
def IsWord (x : String) : Prop := ∃ t, Token.scan x = .ok [t] ∧ t.lexeme = .name x

/-- After so many characters, the first one of the wrong kind: some are wrong at the front, others
    behind. -/
inductive FirstOdd (front behind : Char → Bool) : List Char → Nat → Char → Prop
  | front {c cs} : front c = true → FirstOdd front behind (c :: cs) 0 c
  | behind {b bs c cs} : front b = false → (∀ d ∈ bs, behind d = false) → behind c = true →
      FirstOdd front behind (b :: (bs ++ c :: cs)) (bs.length + 1) c

variable {x : String} {b c : Char} {bs cs rest : List Char} {p q : Nat} {front behind : Char → Bool}

theorem not_firstOdd_cons : (∀ p u, ¬ FirstOdd front behind (c :: cs) p u) ↔
    front c = false ∧ ∀ d ∈ cs, behind d = false := by
  constructor
  · intro h
    have hc : front c = false := Bool.eq_false_iff.2 fun hc => h _ _ (.front hc)
    refine ⟨hc, fun d hd => Bool.eq_false_iff.2 fun hb => ?_⟩
    obtain ⟨u, hu⟩ := Option.isSome_iff_exists.1 (List.find?_isSome.2 ⟨d, hd, hb⟩)
    obtain ⟨hodd, before, after, rfl, hbefore⟩ := List.find?_eq_some_iff_append.1 hu
    exact h _ _ (.behind hc (by simpa using hbefore) hodd)
  · rintro ⟨hc, hcs⟩ p u (hf | ⟨-, -, hb⟩)
    · simp_all
    · simp_all

/-- From the first character of a word on, the word is read as far as its characters go. -/
theorem scanFrom_word (hc : beginsWord c = true) (hcs : ∀ d ∈ cs, continuesWord d = true)
    (hrest : ∀ d ∈ rest.head?, continuesWord d = false) :
    Token.scanFrom p (c :: (cs ++ rest)) = (Token.scanFrom (p + 1 + cs.length) rest).map
      (⟨String.ofList (c :: cs), p, .name (String.ofList (c :: cs))⟩ :: ·) := by
  have hd := isDigit_eq_false_of_beginsWord hc
  have hon : continuesToken c = continuesWord := by
    funext d
    simp [continuesToken, hd, hc]
  obtain ⟨htw, hdw⟩ := takeWhile_dropWhile_append hcs hrest
  rw [scanFrom_token (isBlank_eq_false_of_beginsWord hc), hon, htw, hdw]
  simp only [Token.read, hd, hc, if_true, Bool.false_eq_true, if_false]
  rfl

/-- What is neither blank nor a digit, a letter, an underscore or a sign is no token. -/
theorem scanFrom_unexpected (hclass : CharClass.of c = .numeral ∨ CharClass.of c = .other)
    (hsign : signSpans.has c = false) (hu : c ≠ '_') :
    Token.scanFrom p (c :: cs) = .error (.unexpectedCharacter (String.singleton c) p) := by
  have hblank : isBlank c = false := by
    rw [Bool.eq_false_iff, Ne, isBlank_iff]
    rcases hclass with h | h <;> simp [h]
  have hdigit : isDigit c = false := by rcases hclass with h | h <;> simp [isDigit, h]
  have hletter : isLetter c = false := by rcases hclass with h | h <;> simp [isLetter, h]
  have hword : beginsWord c = false := by simp [beginsWord, hletter, hu]
  have hnone : Lexeme.sign? c = none := by
    refine Option.eq_none_iff_forall_ne_some.2 fun l hl => ?_
    rw [signSpans_of_sign (sign?_eq_some_iff.1 hl)] at hsign
    cases hsign
  rw [scanFrom_token hblank, takeWhile_of_sign hdigit hword]
  simp only [Token.read, hdigit, hword, hnone, Bool.false_eq_true, if_false]
  rfl

theorem isName_of_toList (hx : x.toList = c :: cs) :
    isName x = true ↔ beginsName c = true ∧ ∀ d ∈ cs, continuesName d = true := by
  rw [isName, hx, Bool.and_eq_true, List.all_eq_true]

theorem Lexeme.Means.eq_ofList (h : (Lexeme.name x).Means cs) : x = String.ofList cs := by
  cases h with
  | name => rfl
  | sign hl => simp [signs] at hl

/-- A text is one word if its characters are those of a word. -/
theorem isWord_of_toList (hx : x.toList = c :: cs) :
    IsWord x ↔ beginsWord c = true ∧ ∀ d ∈ cs, continuesWord d = true := by
  constructor
  · rintro ⟨t, hscan, ht⟩
    obtain ⟨q, hs⟩ := scanFrom_eq_ok.1 hscan
    have hspelled := ((hs.madeOf_iff rfl _).2 rfl).spelled t.word (by simp)
    have hmeans := hs.means t (by simp)
    have htext : t.text = x := by
      rw [ht] at hmeans
      rw [hmeans.eq_ofList, String.ofList_toList]
    obtain ⟨⟨d, hd, hc⟩, hcs⟩ : WordSort.name.Spells (c :: cs) := by
      rw [← hx, ← htext]
      simpa [Token.word, ht, Lexeme.sort] using hspelled
    cases hd
    refine ⟨beginsWord_iff.2 hc, fun d hd => ?_⟩
    simpa [continuesWord] using hcs d (List.mem_cons_of_mem _ hd)
  · rintro ⟨hc, hcs⟩
    have hscan := @scanFrom_word c cs [] 0 hc hcs (by simp)
    rw [List.append_nil, ← hx, String.ofList_toList, Token.scanFrom] at hscan
    exact ⟨_, hscan, rfl⟩

theorem not_isWord_of_toList (hx : x.toList = []) : ¬ IsWord x := by
  rintro ⟨t, hscan, -⟩
  rw [Token.scan, hx, Token.scanFrom] at hscan
  cases hscan

/-- **A name is a word** unless it has a character that no word has at its place. -/
theorem isWord_iff_of_isName (h : isName x = true) :
    IsWord x ↔ ∀ p u, ¬ FirstOdd beginsNameOnly continuesNameOnly x.toList p u := by
  cases hx : x.toList with
  | nil => simp [isName, hx] at h
  | cons c cs =>
    obtain ⟨hc, hcs⟩ := (isName_of_toList hx).1 h
    rw [isWord_of_toList hx, not_firstOdd_cons]
    exact and_congr (beginsWord_iff_of_beginsName hc)
      (forall₂_congr fun d hd => continuesWord_iff_of_continuesName (hcs d hd))

/-- **A word is a name** unless it has a character that no name has at its place. -/
theorem isName_iff_of_isWord (h : IsWord x) :
    isName x = true ↔ ∀ p u, ¬ FirstOdd beginsWordOnly continuesWordOnly x.toList p u := by
  cases hx : x.toList with
  | nil => exact absurd h (not_isWord_of_toList hx)
  | cons c cs =>
    obtain ⟨hc, hcs⟩ := (isWord_of_toList hx).1 h
    rw [isName_of_toList hx, not_firstOdd_cons]
    exact and_congr (beginsName_iff_of_beginsWord hc)
      (forall₂_congr fun d hd => continuesName_iff_of_continuesWord (hcs d hd))

theorem continuesNameOnly_iff : continuesNameOnly c = true ↔ marks.has c = true ∧ c ≠ '_' := by
  simp [continuesNameOnly]

theorem continuesWord_of_continuesNameOnly (h : continuesNameOnly c = true) :
    continuesWord c = false := by
  obtain ⟨hm, hc⟩ := continuesNameOnly_iff.1 h
  simp [continuesWord, isAlphanumeric, class_of_marks hm, hc]

theorem scanFrom_continuesNameOnly (h : continuesNameOnly c = true) :
    Token.scanFrom p (c :: cs) = .error (.unexpectedCharacter (String.singleton c) p) := by
  obtain ⟨hm, hc⟩ := continuesNameOnly_iff.1 h
  exact scanFrom_unexpected (.inr (class_of_marks hm)) (marks_apart signSpans (by simp) c hm) hc

theorem scanFrom_beginsNameOnly (h : beginsNameOnly c = true) :
    Token.scanFrom p (c :: cs) = .error (.unexpectedCharacter (String.singleton c) p) := by
  rcases Bool.or_eq_true_iff.1 h with hn | hs
  · have hc : c ≠ '_' := by
      rintro rfl
      revert hn
      decide +kernel
    exact scanFrom_unexpected (.inl (class_of_leadingNumerals hn))
      (leadingNumerals_apart signSpans (by simp) c hn) hc
  · obtain ⟨hs, hc⟩ := Bool.and_eq_true_iff.1 hs
    exact scanFrom_continuesNameOnly
      (continuesNameOnly_iff.2 ⟨marks_of_leadingSigns hs, of_decide_eq_true hc⟩)

/-- **A name that is no word** cannot be scanned: its first character that no word has at its place
    is no token. -/
theorem scan_of_firstOdd (h : isName x = true)
    (ho : FirstOdd beginsNameOnly continuesNameOnly x.toList p c) :
    Token.scan x = .error (.unexpectedCharacter (String.singleton c) p) := by
  rw [Token.scan]
  generalize hx : x.toList = cs at ho
  cases ho with
  | front hc => exact scanFrom_beginsNameOnly hc
  | @behind b bs c rest hb hbs hc =>
    obtain ⟨hname, hnames⟩ := (isName_of_toList hx).1 h
    have hword : beginsWord b = true := (beginsWord_iff_of_beginsName hname).2 hb
    have hwords : ∀ d ∈ bs, continuesWord d = true := fun d hd =>
      (continuesWord_iff_of_continuesName (hnames d (List.mem_append_left _ hd))).2 (hbs d hd)
    rw [scanFrom_word hword hwords (by simp [continuesWord_of_continuesNameOnly hc]),
      scanFrom_continuesNameOnly hc]
    simp [Except.map, Nat.add_comm]

/-- A word comes to the value that it has in a scope. -/
theorem outcome_of_isWord {s : Scope} (h : IsWord x) : outcome s x = s.value x := by
  obtain ⟨t, hscan, ht⟩ := h
  have hparse : Expr.parse [t] = .ok (.var x t.spot) :=
    (Expr.Derives.ofPrimary (.name ht)).parse_eq
  have hx : Expr.parseText x = .ok (.var x t.spot) := by
    rw [Expr.parseText, hscan]
    exact hparse
  rw [outcome_of_parseText hx, Expr.answer_var]

theorem outcome_of_scan_error {s : Scope} {e : Error} (h : Token.scan x = .error e) :
    outcome s x = .error (.error e) := by
  rw [outcome_eq, parseText_eq_error.2 (.inl h)]
  rfl

namespace CommandLine

/-! ## Definitions -/

variable {name value pair : String} {n : Number} {d d' : Definitions} {ps : List (Option String)}

/-- The name that a definition of the command line is for. -/
def definedName (pair : String) : String := String.ofList (splitEquals pair.toList).1

theorem splitEquals_append (h : '=' ∉ cs) : splitEquals (cs ++ '=' :: rest) = (cs, some rest) := by
  have hcs : ∀ d ∈ cs, decide (d ≠ '=') = true := by
    intro d hd
    simp only [decide_eq_true_eq]
    rintro rfl
    exact h hd
  obtain ⟨htw, hdw⟩ := @takeWhile_dropWhile_append cs ('=' :: rest) _ hcs (by simp)
  rw [splitEquals, hdw]
  simp only
  rw [htw]

theorem splitEquals_pair (h : '=' ∉ name.toList) :
    splitEquals (name ++ "=" ++ value).toList = (name.toList, some value.toList) := by
  rw [String.toList_append, String.toList_append, List.append_assoc]
  exact splitEquals_append h

/-- **What the command line makes of a definition** with a value. -/
theorem definition_eq (hname : '=' ∉ name.toList) (hvalue : evaluatePlain value = .ok n)
    (d : Definitions) : definition (name ++ "=" ++ value) d =
      if isName name then .ok (d.insert name n)
      else .error (.misuse ("expected NAME=VALUE, not " ++ quote (name ++ "=" ++ value))) := by
  rw [definition, splitEquals_pair hname]
  simp only [String.ofList_toList, hvalue]
  cases isName name <;> rfl

/-- An accepted definition binds its name and no other. -/
theorem definition_eq_ok (h : definition pair d = .ok d') :
    isName (definedName pair) = true ∧ ∃ n, d' = d.insert (definedName pair) n := by
  unfold definition at h
  unfold definedName
  split at h
  · cases h
  rename_i hs
  rw [hs]
  dsimp only at h ⊢
  split at h
  · cases h
  rename_i hx
  split at h
  · cases h
    exact ⟨by simpa using hx, _, rfl⟩
  all_goals cases h

theorem find?_of_define (h : ps.foldlM Calculator.define d = .ok d')
    (hn : ∀ pair, some pair ∈ ps → definedName pair ≠ name) : d'.find? name = d.find? name := by
  induction ps generalizing d with
  | nil =>
    cases h
    rfl
  | cons p ps ih =>
    rw [List.foldlM_cons] at h
    obtain ⟨d₁, h₁, h⟩ := Expr.bind_eq_ok.1 h
    rw [ih h fun pair hp => hn pair (List.mem_cons_of_mem _ hp)]
    cases p with
    | none => cases h₁
    | some pair =>
      obtain ⟨-, n, rfl⟩ := definition_eq_ok h₁
      rw [Registry.find?_insert, if_neg (hn pair List.mem_cons_self).symm]

/-- After all definitions a name has the value of the last one that is for it. -/
theorem find?_of_prepare {before after : List (Option String)} {o : Options} {g : Grumble}
    {host : Host} {c : Calculator} (hname : '=' ∉ name.toList)
    (hvalue : evaluatePlain value = .ok n)
    (ho : o.definitions = before ++ some (name ++ "=" ++ value) :: after)
    (hafter : ∀ later, some later ∈ after → definedName later ≠ name)
    (hc : Calculator.prepare o g host = .ok c) :
    isName name = true ∧ c.definitions.find? name = some n := by
  obtain ⟨d, hd, rfl⟩ := prepare_eq_ok.1 hc
  rw [ho, List.foldlM_append] at hd
  obtain ⟨d₁, -, hd⟩ := Expr.bind_eq_ok.1 hd
  rw [List.foldlM_cons] at hd
  obtain ⟨d₂, h₂, hd⟩ := Expr.bind_eq_ok.1 hd
  rw [Calculator.define, definition_eq hname hvalue] at h₂
  split at h₂
  · rename_i hx
    cases h₂
    exact ⟨hx, by rw [find?_of_define hd hafter, Registry.find?_insert, if_pos rfl]⟩
  · cases h₂

/-- **Which names are accepted, and which of them can be used.**  Of the texts without an equals
    sign, the command line accepts those as names that are names by the rule of Unicode, given a
    value.  They are the words of expressions but for the characters in which the two rules differ.
    After all definitions an accepted name comes to its value if it is a word; if it is none, then
    its first character that no word has at its place is in the way. -/
theorem define_usable (hname : '=' ∉ name.toList) (hvalue : evaluatePlain value = .ok n) :
    let pair := name ++ "=" ++ value
    (∀ d, Calculator.define d (some pair) =
      if isName name then .ok (d.insert name n)
      else .error (.misuse ("expected NAME=VALUE, not " ++ quote pair))) ∧
    (isName name = true →
      (IsWord name ↔ ∀ p u, ¬ FirstOdd beginsNameOnly continuesNameOnly name.toList p u)) ∧
    (IsWord name →
      (isName name = true ↔ ∀ p u, ¬ FirstOdd beginsWordOnly continuesWordOnly name.toList p u)) ∧
    ∀ before after o g host c functions, o.definitions = before ++ some pair :: after →
      (∀ later, some later ∈ after → definedName later ≠ name) →
      Calculator.prepare o g host = .ok c →
      (IsWord name → outcome (Scope.of c.definitions.plain functions) name = .ok n) ∧
      ∀ p u, FirstOdd beginsNameOnly continuesNameOnly name.toList p u →
        outcome (Scope.of c.definitions.plain functions) name =
          .error (.error (.unexpectedCharacter (String.singleton u) p)) := by
  refine ⟨definition_eq hname hvalue, isWord_iff_of_isName, isName_iff_of_isWord, ?_⟩
  intro before after o g host c functions ho hafter hc
  obtain ⟨hx, hn⟩ := find?_of_prepare hname hvalue ho hafter hc
  refine ⟨fun hword => ?_, fun p u hodd => outcome_of_scan_error (scan_of_firstOdd hx hodd)⟩
  have hlookup : (Scope.of c.definitions.plain functions).value? name = some (.number n) := by
    simp [Scope.of, Definitions.plain, hn]
  rw [outcome_of_isWord hword, Scope.value, hlookup]
  rfl

/-- A name beyond ASCII that is defined twice, and a Roman numeral, which is a name and no word. -/
theorem define_usable_numeral :
    let o : Options :=
      ⟨none, [some "größe=1", some "größe=2 ^ 3", some "Ⅷ=8"], false, .full, false⟩
    '=' ∉ "größe".toList ∧ evaluatePlain "2 ^ 3" = .ok (.int 8) ∧ IsWord "größe" ∧
    '=' ∉ "Ⅷ".toList ∧ evaluatePlain "8" = .ok (.int 8) ∧ isName "Ⅷ" = true ∧ ¬ IsWord "Ⅷ" ∧
    ∃ c, Calculator.prepare o .first .usual = .ok c ∧
      outcome (Scope.of c.definitions.plain Functions.standard) "größe" = .ok (.int 8) ∧
      outcome (Scope.of c.definitions.plain Functions.standard) "Ⅷ" =
        .error (.error (.unexpectedCharacter "Ⅷ" 0)) := by
  intro o
  have hpower : evaluatePlain "2 ^ 3" = .ok (.int 8) := by decide +kernel
  have height : evaluatePlain "8" = .ok (.int 8) := by decide +kernel
  have hletters : "größe".toList = ['g', 'r', 'ö', 'ß', 'e'] := by decide +kernel
  have hword : IsWord "größe" := (isWord_of_toList hletters).2
    ⟨by decide +kernel, List.all_eq_true.1 (by decide +kernel)⟩
  have hnumeral : leadingNumerals.has 'Ⅷ' = true := by decide +kernel
  have hroman : "Ⅷ".toList = ['Ⅷ'] := by decide +kernel
  have hname : isName "Ⅷ" = true :=
    (isName_of_toList hroman).2 ⟨by simp [beginsName, hnumeral], by simp⟩
  have hodd : FirstOdd beginsNameOnly continuesNameOnly "Ⅷ".toList 0 'Ⅷ' := by
    rw [hroman]
    exact .front (by simp [beginsNameOnly, hnumeral])
  have hok : (Calculator.prepare o .first .usual).toOption.isSome = true := by decide +kernel
  obtain ⟨-, -, -, hlast⟩ := define_usable (by decide : '=' ∉ "größe".toList) hpower
  obtain ⟨-, hwords, -, hother⟩ := define_usable (by decide : '=' ∉ "Ⅷ".toList) height
  refine ⟨by decide, hpower, hword, by decide, height, hname,
    fun h => (hwords hname).1 h _ _ hodd, ?_⟩
  cases hc : Calculator.prepare o .first .usual with
  | error e =>
    rw [hc] at hok
    cases hok
  | ok c =>
    have hafter : ∀ later, some later ∈ [some "Ⅷ=8"] → definedName later ≠ "größe" := by
      intro later hl
      cases Option.some.inj (List.mem_singleton.1 hl)
      decide +kernel
    exact ⟨c, rfl, (hlast [some "größe=1"] _ o _ _ c _ rfl hafter hc).1 hword,
      (hother [some "größe=1", some "größe=2 ^ 3"] [] o _ _ c _ rfl (by simp) hc).2 _ _ hodd⟩

/-- A letter with a macron above it is accepted as a name, and no expression can use it.  A letter
    with a superscript two is a word, and is not accepted. -/
theorem define_macron :
    evaluatePlain "3" = .ok (.int 3) ∧
    (∃ d, Calculator.define Registry.empty (some "x\u0304=3") = .ok d ∧
      outcome (Scope.of d.plain Functions.standard) "x\u0304" =
        .error (.error (.unexpectedCharacter "\u0304" 1))) ∧
    ¬ IsWord "x\u0304" ∧
    (run ["-D", "x\u0304=3", "x\u0304"] "" false .first).ending = .status 1 ∧
    Token.scan "x²" = .ok [⟨"x²", 0, .name "x²"⟩] ∧
    Calculator.define Registry.empty (some "x²=3") =
      .error (.misuse "expected NAME=VALUE, not 'x²=3'") := by
  have hthree : evaluatePlain "3" = .ok (.int 3) := by decide +kernel
  have hscan : Token.scan "x\u0304" = .error (.unexpectedCharacter "\u0304" 1) := by decide +kernel
  have hname : isName "x\u0304" = true := by decide +kernel
  have hno : isName "x²" = false := by decide +kernel
  have hpair : "x\u0304=3" = "x\u0304" ++ "=" ++ "3" := by decide +kernel
  have hpair' : "x²=3" = "x²" ++ "=" ++ "3" := by decide +kernel
  have hd := definition_eq (by decide +kernel : '=' ∉ "x\u0304".toList) hthree
  have hd' := definition_eq (by decide +kernel : '=' ∉ "x²".toList) hthree
  simp only [hname, ← hpair, if_true] at hd
  simp only [hno, ← hpair', Bool.false_eq_true, if_false] at hd'
  refine ⟨hthree, ⟨_, hd Registry.empty, outcome_of_scan_error hscan⟩, ?_, by decide +kernel,
    by decide +kernel, ?_⟩
  · rintro ⟨t, h, -⟩
    rw [hscan] at h
    cases h
  · have hmessage : "expected NAME=VALUE, not " ++ quote "x²=3" =
        "expected NAME=VALUE, not 'x²=3'" := by decide +kernel
    rw [Calculator.define, hd', hmessage]

end CommandLine

end Reckon
