/-
  Infinities and undefined values.

  A float result must be finite: every operator and every standard function sees to that, and
  a text writes finite numbers only.  What is not finite comes from outside, by a variable or by
  a function of a caller's, and goes no further than through minuses.

  * `Binary64.isFinite_neg`: the opposite of a finite float is finite;
  * `Number.IsFinite`: finite numbers; `Operator.isFinite_of_apply`, `isFinite_of_run`: what
    operators and standard functions answer with, whatever their operands;
  * `Expr.Negated`: an expression with minuses before it; `Expr.Injects`: where a number that is not
    finite comes from;
  * `exists_injects_iff`: the expressions that come to such a number;
  * `outcome_not_finite_iff`: the texts.
-/
import Reckon.Proofs.Writing
import Reckon.Proofs.Zeros

namespace Reckon

/-! ## Opposite floats -/

namespace Binary64

open Float.Model (UnpackedFloat)
open Float.Model.Format (binary64)
open Float.Model.UnpackedFloat (unpackExponent unpackMantissa unpackExponent_packComponents
  unpackMantissa_packComponents packComponents Sign)

variable {u : UnpackedFloat} {b : BitVec binary64.numBits} {s : Sign} {x : Float}

/-- A float is finite iff not all bits of its exponent field are set. -/
theorem isFinite_unpack : (UnpackedFloat.unpack binary64 b).isFinite = true ↔
    (@unpackExponent binary64 b).toNat < 2047 := by
  have hfull : (@unpackExponent binary64 b).toNat < 2047 ↔ ¬ @unpackExponent binary64 b = -1#_ := by
    have hlt : (@unpackExponent binary64 b).toNat < 2048 := (@unpackExponent binary64 b).isLt
    have hn : (-1#11).toNat = 2047 := rfl
    rw [← BitVec.toNat_inj]
    show _ ↔ ¬ _ = (-1#11).toNat
    omega
  rw [hfull]
  have hu := unpacks b
  generalize UnpackedFloat.unpack binary64 b = u at hu
  cases hu with
  | special he hf => exact ⟨fun h => absurd h (Bool.eq_false_iff.1 hf), fun h => absurd he h⟩
  | zero he | subnormal he =>
    refine ⟨fun _ => ?_, fun _ => rfl⟩
    rw [he]
    decide
  | normal he => exact ⟨fun _ => he, fun _ => rfl⟩

/-- The exponent of an unpacked float is below the full one. -/
theorem exponent_of_unpack {m : Nat} {e : Int} {hm : 0 < m}
    (h : UnpackedFloat.unpack binary64 b = .finite s m e hm) : e + 1075 < 2047 := by
  have hlt : (@unpackExponent binary64 b).toNat < 2047 := isFinite_unpack.1 (by rw [h]; rfl)
  have hu := unpacks b
  rw [h] at hu
  cases hu with
  | special _ hf => cases hf
  | subnormal _ he => omega
  | normal _ _ he => omega

/-- A float whose exponent is below the full one stays finite when it is packed. -/
theorem isFinite_pack (hu : u.isFinite = true)
    (he : ∀ s m e hm, u = .finite s m e hm → e + 1075 < 2047) :
    (UnpackedFloat.unpack binary64 (UnpackedFloat.pack binary64 u)).isFinite = true := by
  cases u with
  | notANumber => cases hu
  | infinity s => cases hu
  | zero s => cases s <;> rfl
  | finite s m e hm =>
    have he := he s m e hm rfl
    have hb : (binary64.exponentBias : Int) = 1023 := rfl
    have hp : (binary64.mantissaBitsWithoutImplicit : Int) = 52 := rfl
    have hsmall : ¬ 2 ^ binary64.exponentBits ≤
        (e + binary64.exponentBias + binary64.mantissaBitsWithoutImplicit).toNat + 1 := by
      rw [hb, hp]
      show ¬ 2048 ≤ _
      omega
    rw [isFinite_unpack]
    unfold UnpackedFloat.pack
    dsimp only
    rw [if_neg hsmall]
    split
    · rw [unpackExponent_packComponents, BitVec.toNat_ofNat, hb, hp]
      refine Nat.lt_of_le_of_lt (Nat.mod_le _ _) ?_
      omega
    · rw [unpackExponent_packComponents, BitVec.toNat_ofNat, Nat.zero_mod]
      omega

/-- **The opposite of a finite number is finite**, and of no other. -/
@[simp]
theorem isFinite_neg (x : Float) : (-x).isFinite = x.isFinite := by
  have hn : (-x).isFinite = (UnpackedFloat.unpack binary64
      (UnpackedFloat.pack binary64 x.toModel.unpack.neg)).isFinite := rfl
  have hx : x.isFinite = x.toModel.unpack.isFinite := rfl
  rw [hn, hx]
  cases hu : x.toModel.unpack with
  | notANumber => rfl
  | infinity s => cases s <;> rfl
  | zero s => cases s <;> rfl
  | finite s m e hm =>
    refine isFinite_pack rfl ?_
    rintro s' m' e' hm' ⟨⟩
    exact exponent_of_unpack hu

end Binary64

/-! ## Operators and functions -/

/-- A number that is no infinity and not undefined. -/
def Number.IsFinite : Number → Prop
  | int _ => True
  | float x => x.isFinite = true

namespace Number

variable {a b n : Number} {x : Float}

theorem isFinite_of_ofFinite (h : ofFinite x = .ok n) : n.IsFinite := by
  unfold ofFinite at h
  split at h
  · rename_i hx
    cases h
    exact hx
  · cases h

/-- Numbers widened to floats, and a float made of them. -/
theorem isFinite_of_widen {k : Float → Float → Except Fault Number}
    (hk : ∀ x y, k x y = .ok n → n.IsFinite)
    (h : (do let x ← a.toFloat; let y ← b.toFloat; k x y) = .ok n) : n.IsFinite := by
  obtain ⟨x, -, h⟩ := Expr.bind_eq_ok.1 h
  obtain ⟨y, -, h⟩ := Expr.bind_eq_ok.1 h
  exact hk x y h

/-- A float that may fail, made a result. -/
theorem isFinite_of_result {r : Except Fault Float} (h : (r >>= ofFinite) = .ok n) :
    n.IsFinite := by
  obtain ⟨x, -, h⟩ := Expr.bind_eq_ok.1 h
  exact isFinite_of_ofFinite h

theorem isFinite_of_combine {exact : Int → Int → Int} {inexact : Float → Float → Float}
    (h : combine exact inexact a b = .ok n) : n.IsFinite := by
  unfold combine at h
  split at h
  · cases h
    trivial
  · exact isFinite_of_widen (fun x y => isFinite_of_ofFinite) h

theorem isFinite_of_divide (h : divide a b = .ok n) : n.IsFinite := by
  unfold divide at h
  split at h
  · split at h
    · cases h
    split at h
    · cases h
      trivial
    · exact isFinite_of_result h
  · refine isFinite_of_widen (fun x y hk => ?_) h
    split at hk
    · cases hk
    · exact isFinite_of_ofFinite hk

theorem isFinite_of_remainder (h : remainder a b = .ok n) : n.IsFinite := by
  unfold remainder at h
  split at h
  · cases h
  split at h
  · cases h
    trivial
  · exact isFinite_of_widen (fun x y => isFinite_of_result) h

theorem isFinite_of_power (h : power a b = .ok n) : n.IsFinite := by
  unfold power at h
  dsimp only at h
  split at h
  · split at h
    · exact isFinite_of_widen (fun x y => isFinite_of_result) h
    split at h
    · cases h
    · cases h
      trivial
  · exact isFinite_of_widen (fun x y => isFinite_of_result) h

@[simp]
theorem isFinite_negate : n.negate.IsFinite ↔ n.IsFinite := by
  cases n with
  | int i => exact Iff.rfl
  | float x =>
    show (-x).isFinite = true ↔ x.isFinite = true
    rw [Binary64.isFinite_neg]

end Number

variable {a b n : Number}

/-- **The answers of operators are finite**, also where the operands are not. -/
theorem Operator.isFinite_of_apply {o : Operator} (h : o.apply a b = .ok n) : n.IsFinite := by
  cases o with
  | add | subtract | multiply => exact Number.isFinite_of_combine h
  | divide => exact Number.isFinite_of_divide h
  | remainder => exact Number.isFinite_of_remainder h
  | power => exact Number.isFinite_of_power h

theorem isFinite_of_applyOperator {op : String} {p : Int} (h : applyOperator op p a b = .ok n) :
    n.IsFinite := by
  obtain ⟨o, -, hr⟩ := applyOperator_eq_ok.1 h
  exact o.isFinite_of_apply hr

/-- **The answers of standard functions are finite.** -/
theorem StandardFunction.isFinite_of_run {f : StandardFunction} {args : List Number}
    (h : f.run args = .ok n) : n.IsFinite := by
  unfold StandardFunction.run at h
  split at h
  · cases h
  · cases h
  · split at h
    · rename_i hx
      cases h
      exact hx
    · cases h

/-! ## Expressions -/

namespace Expr

/-- An expression with any number of minuses before it. -/
inductive Negated : Expr → Expr → Prop
  | self {u : Expr} : Negated u u
  | minus {e u : Expr} {p : Int} : Negated e u → Negated (unary "-" e p) u

/-- A number that is not finite comes in: a variable that is defined so, or a call of a caller's
    function that answers so. -/
inductive Injects (s : Scope) : Expr → Prop
  | var {x : String} {p : Int} {n : Number} : s.value? x = some (.number n) → ¬ n.IsFinite →
      Injects s (.var x p)
  | call {f : String} {args : List Expr} {p : Int} {g : List Number → Except Failure PlainValue}
      {values : List Number} {n : Number} : s.callable f = .ok (.given g) →
      args.mapM (·.answer s) = .ok values → g values = .ok (.number n) → ¬ n.IsFinite →
      Injects s (call f args p)

/-- The numbers written in an expression are finite. -/
def FiniteLiterals (e : Expr) : Prop := ∀ n p, literal n p ∈ e.subtrees → n.IsFinite

variable {s : Scope} {e u : Expr}

theorem FiniteLiterals.subtree (h : e.FiniteLiterals) (hu : u ∈ e.subtrees) : u.FiniteLiterals :=
  fun n p hn => h n p (subtrees_subset u hu hn)

/-- A function that answers with a number that is not finite is a caller's. -/
theorem given_of_run {g : Callable} {values : List Number} (h : g.run values = .ok n)
    (hn : ¬ n.IsFinite) : ∃ k, g = .given k ∧ k values = .ok (.number n) := by
  rcases run_eq_ok.1 h with ⟨k, rfl, hr⟩ | hk
  · exact absurd (StandardFunction.isFinite_of_run hr) hn
  · exact hk

/-- **A number that is not finite** passes through nothing but minuses. -/
theorem exists_injects : ∀ {e : Expr} {n : Number}, e.FiniteLiterals → e.answer s = .ok n →
    ¬ n.IsFinite → ∃ u, Negated e u ∧ Injects s u
  | literal m p, n, hl, h, hn => by
    have hm : m = n := by simpa using h
    exact absurd (hm ▸ hl m p (mem_subtrees_self _)) hn
  | .var x p, n, _, h, hn => by
    rw [answer_var] at h
    exact ⟨_, .self, .var (value_eq_ok.1 h) hn⟩
  | unary op e p, n, hl, h, hn => by
    obtain ⟨rfl, m, hm, rfl⟩ := answer_unary_eq_ok.1 h
    have hle : e.FiniteLiterals := fun k q hq => hl k q (List.mem_cons_of_mem _ hq)
    obtain ⟨u, hu, hi⟩ := exists_injects hle hm (mt Number.isFinite_negate.2 hn)
    exact ⟨u, .minus hu, hi⟩
  | binary op l r p, n, _, h, hn => by
    obtain ⟨a, b, -, -, ho⟩ := answer_binary_eq_ok.1 h
    exact absurd (isFinite_of_applyOperator ho) hn
  | call f args p, n, _, h, hn => by
    obtain ⟨g, values, hg, hv, hr⟩ := answer_call_eq_ok.1 h
    obtain ⟨k, rfl, hk⟩ := given_of_run hr hn
    exact ⟨_, .self, .call hg hv hk hn⟩

theorem Injects.answer (h : Injects s u) : ∃ n, u.answer s = .ok n ∧ ¬ n.IsFinite := by
  cases h with
  | var hx hn =>
    refine ⟨_, ?_, hn⟩
    rw [answer_var, value_eq_ok]
    exact hx
  | call hg hv hk hn =>
    refine ⟨_, answer_call_eq_ok.2 ⟨_, _, hg, hv, ?_⟩, hn⟩
    rw [Callable.run, hk]
    rfl

theorem Negated.answer (h : Negated e u) (hu : ∃ n, u.answer s = .ok n ∧ ¬ n.IsFinite) :
    ∃ n, e.answer s = .ok n ∧ ¬ n.IsFinite := by
  induction h with
  | self => exact hu
  | minus _ ih =>
    obtain ⟨n, hn, hf⟩ := ih hu
    exact ⟨n.negate, answer_unary_eq_ok.2 ⟨rfl, n, hn, rfl⟩, mt Number.isFinite_negate.1 hf⟩

/-- The expressions of finite literals that come to a number that is not finite. -/
theorem exists_injects_iff (hl : e.FiniteLiterals) :
    (∃ n, e.answer s = .ok n ∧ ¬ n.IsFinite) ↔ ∃ u, Negated e u ∧ Injects s u :=
  ⟨fun ⟨_, h, hn⟩ => exists_injects hl h hn, fun ⟨_, hu, hi⟩ => hu.answer hi.answer⟩

end Expr

/-- Nothing in a scope brings in a number that is not finite: the variables are finite, and all
    functions are standard functions. -/
structure Scope.IsFinite (s : Scope) : Prop where
  value : ∀ x n, s.value? x = some (.number n) → n.IsFinite
  callable : ∀ f g, s.callable f = .ok g → ∃ k, g = .standard k

/-- Finite definitions and the standard functions make a scope like that. -/
theorem Scope.isFinite_of {definitions : Option (Registry PlainValue)}
    {functions : Option Functions}
    (hd : ∀ d, definitions = some d → ∀ x n, d.find? x = some (.number n) → n.IsFinite)
    (hf : functions = none ∨ functions = some .empty ∨ functions = some .standard) :
    (Scope.of definitions functions).IsFinite := by
  constructor
  case value =>
    intro x n h
    obtain ⟨d, hs, h⟩ := Option.bind_eq_some_iff.1 h
    exact hd d hs x n h
  case callable => exact fun f g h => exists_standard hf h

theorem Scope.isFinite_empty : Scope.empty.IsFinite := by
  constructor
  · rintro x n ⟨⟩
  · rintro f g ⟨⟩

theorem Scope.IsFinite.not_injects {s : Scope} (hs : s.IsFinite) (u : Expr) : ¬ u.Injects s := by
  rintro (⟨hx, hn⟩ | ⟨hg, -, -, -⟩)
  · exact hn (hs.value _ _ hx)
  · obtain ⟨k, ⟨⟩⟩ := hs.callable _ _ hg

/-- In a scope like that every answer is finite. -/
theorem Scope.IsFinite.answer {s : Scope} (hs : s.IsFinite) {e : Expr} (hl : e.FiniteLiterals)
    (h : e.answer s = .ok n) : n.IsFinite := by
  by_contra hn
  obtain ⟨u, -, hi⟩ := Expr.exists_injects hl h hn
  exact hs.not_injects u hi

/-! ## Texts -/

/-- A numeral means a finite number. -/
theorem Lexeme.Means.isFinite {cs : List Char} (h : (Lexeme.number n).Means cs) : n.IsFinite := by
  cases h with
  | whole => trivial
  | fraction _ _ hf => exact hf
  | sign hc => simp [signs] at hc

/-- The numbers that a text writes are finite. -/
theorem finiteLiterals_of_parseText {text : String} {t : Expr} (h : Expr.parseText text = .ok t) :
    t.FiniteLiterals := by
  intro m p hm
  obtain ⟨ts, hs, ht⟩ := Expr.parseText_eq_ok.1 h
  obtain ⟨w, -, -, hw⟩ := Expr.exists_token hs ht hm (List.mem_singleton_self _)
  exact hw.isFinite

/-- **What is not finite goes no further.**  The evaluation of a text comes to a float that is not
    finite iff the text is any number of minuses before a variable that is defined so, or before a
    call of a caller's function that answers so.  With finite definitions and standard functions
    every answer is finite, of a text and of every part of it, and so it is without any names. -/
theorem outcome_not_finite_iff (s : Scope) (text : String) :
    ((∃ x, outcome s text = .ok (.float x) ∧ x.isFinite = false) ↔
      ∃ t u, Expr.parseText text = .ok t ∧ t.Negated u ∧ u.Injects s) ∧
    (s.IsFinite → (∀ n, outcome s text = .ok n → n.IsFinite) ∧
      ∀ t, Expr.parseText text = .ok t → ∀ u ∈ t.subtrees, ∀ n, u.answer s = .ok n → n.IsFinite) ∧
    ∀ n, evaluatePlain text = .ok n → n.IsFinite := by
  have hall : ∀ s : Scope, s.IsFinite → ∀ n, outcome s text = .ok n → n.IsFinite := by
    intro s hs n h
    obtain ⟨t, ht, h⟩ := outcome_eq_ok.1 h
    exact hs.answer (finiteLiterals_of_parseText ht) h
  refine ⟨⟨?_, ?_⟩, fun hs => ⟨hall s hs, fun t ht u hu n h => ?_⟩, hall _ Scope.isFinite_empty⟩
  · rintro ⟨x, h, hx⟩
    obtain ⟨t, ht, h⟩ := outcome_eq_ok.1 h
    have hn : ¬ (Number.float x).IsFinite := by simp [Number.IsFinite, hx]
    obtain ⟨u, hu, hi⟩ := (Expr.exists_injects_iff (finiteLiterals_of_parseText ht)).1 ⟨_, h, hn⟩
    exact ⟨t, u, ht, hu, hi⟩
  · rintro ⟨t, u, ht, hu, hi⟩
    obtain ⟨n, h, hn⟩ := (Expr.exists_injects_iff (finiteLiterals_of_parseText ht)).2 ⟨u, hu, hi⟩
    cases n with
    | int i => exact absurd trivial hn
    | float x =>
      have hx : x.isFinite = false := by simpa [Number.IsFinite] using hn
      exact ⟨x, outcome_eq_ok.2 ⟨t, ht, h⟩, hx⟩
  · exact hs.answer ((finiteLiterals_of_parseText ht).subtree hu) h

/-- A variable that is infinite comes through two minuses.  A finite one has a finite root, and so
    has every part of the expression. -/
theorem outcome_not_finite_variable :
    let s := Scope.of (some (Registry.empty.insert "x" (.number (.float (1 / 0))))) none
    let s' := Scope.of (some (Registry.empty.insert "x" (.number (.float 4)))) (some .standard)
    let t : Expr := .unary "-" (.call "sqrt" [.var "x" 6] 1) 0
    (((1 / 0 : Float).isFinite = false ∧ outcome s "--x" = .ok (.float (1 / 0))) ∧
      ∃ t u, Expr.parseText "--x" = .ok t ∧ t.Negated u ∧ u.Injects s) ∧
    (s'.IsFinite ∧ Expr.parseText "-sqrt(x)" = .ok t ∧
      (∀ u ∈ t.subtrees, ∀ n, u.answer s' = .ok n → n.IsFinite)) ∧
    evaluatePlain "2.5" = .ok (.float 2.5) ∧ (Number.float 2.5).IsFinite := by
  intro s s' t
  have hx : (1 / 0 : Float).isFinite = false := by decide +kernel
  have ho : outcome s "--x" = .ok (.float (1 / 0)) := by decide +kernel
  have hs : s'.IsFinite := by
    refine Scope.isFinite_of ?_ (.inr (.inr rfl))
    rintro d ⟨⟩ x n h
    rw [Registry.find?_insert] at h
    split at h
    · cases h
      show (4 : Float).isFinite = true
      decide +kernel
    · cases h
  have hscan : Token.scan "-sqrt(x)" = .ok [⟨"-", 0, .operator "-"⟩, ⟨"sqrt", 1, .name "sqrt"⟩,
      ⟨"(", 5, .opening⟩, ⟨"x", 6, .name "x"⟩, ⟨")", 7, .closing⟩] := by decide +kernel
  have ht : Expr.parseText "-sqrt(x)" = .ok t := Expr.parseText_eq_ok.2 ⟨_, hscan, by cbv⟩
  have hp : evaluatePlain "2.5" = .ok (.float 2.5) := by decide +kernel
  exact ⟨⟨⟨hx, ho⟩, (outcome_not_finite_iff s "--x").1.1 ⟨_, ho, hx⟩⟩,
    ⟨hs, ht, ((outcome_not_finite_iff s' "-sqrt(x)").2.1 hs).2 t ht⟩,
    hp, (outcome_not_finite_iff s "2.5").2.2 _ hp⟩

end Reckon
