/-
  The machine that a calculation runs on, and the pictures that it draws.

  To write a tree takes nested calls, one inside the other for each level of it, and the
  stack has no room for any number of them.  How many that are depends on the machine and
  on what called the calculator.  Pictures are drawn by others.

  * `Host`: both as parameters, with what is relied on;
  * `Host.write`, `Host.illustrate`: a tree and an error in writing;
  * `Host.ofRoom`: hosts by the number of nested calls; `Host.usual`: that of the program.
-/
import Reckon.Expr.Basic
import Reckon.Failure

namespace Reckon

/-- What a calculation relies on and does not bring along. -/
structure Host where
  /-- Whether the stack has room to write a tree. -/
  hasRoom : Expr → Bool
  /-- Spots are not written and take no room. -/
  hasRoom_unspotted : ∀ e, hasRoom e.unspotted = hasRoom e
  /-- A picture of a text. -/
  draw : Text.Pointer → String → Except Failure String
  /-- Whatever is within a text can be drawn. -/
  exists_draw : ∀ p text, p.IsWithin text → ∃ picture, draw p text = .ok picture

namespace Host

/-- A tree as text, if there is room. -/
def write (host : Host) (e : Expr) : Except Failure String :=
  if host.hasRoom e then Failure.ofFault e.write else .error .outOfRoom

/-- An error with its picture. -/
def illustrate (host : Host) (e : Error) (text : String) : Except Failure String := do
  let picture ← e.pointer?.mapM fun p => host.draw p text
  return e.illustrated picture

/-- An error whose spot is within the text can be shown. -/
theorem exists_illustrate (host : Host) {e : Error} {text : String} (h : e.IsWithin text) :
    ∃ shown, host.illustrate e text = .ok shown := by
  unfold illustrate
  cases hp : e.pointer? with
  | none => exact ⟨_, rfl⟩
  | some p =>
    obtain ⟨picture, hd⟩ := host.exists_draw p text (h p hp)
    refine ⟨e.illustrated (some picture), ?_⟩
    rw [Option.mapM_some, hd]
    rfl

end Host

/-! ## Hosts by their room -/

namespace Expr

mutual

/-- The nested calls that it takes to write a tree. -/
def textCalls : Expr → Nat
  | literal _ _ => 3
  | .var _ _ => 1
  | unary _ e _ => textCalls e + 1
  | binary _ l r _ => max (textCalls l) (textCalls r) + 1
  | call _ args _ => textCallsAll args + 1

/-- The nested calls that it takes to write any of several trees as arguments. -/
def textCallsAll : List Expr → Nat
  | [] => 0
  | e :: es => max (textCalls e + 1) (textCallsAll es)

end

mutual

theorem textCalls_unspotted : ∀ e : Expr, e.unspotted.textCalls = e.textCalls
  | literal _ _ | .var _ _ => rfl
  | unary _ e _ => by rw [unspotted, textCalls, textCalls, textCalls_unspotted e]
  | binary _ l r _ => by
    rw [unspotted, textCalls, textCalls, textCalls_unspotted l, textCalls_unspotted r]
  | call _ args _ => by rw [unspotted, textCalls, textCalls, textCallsAll_unspotted args]

theorem textCallsAll_unspotted : ∀ es : List Expr,
    textCallsAll (unspottedAll es) = textCallsAll es
  | [] => rfl
  | e :: es => by
    rw [unspottedAll, textCallsAll, textCallsAll, textCalls_unspotted e, textCallsAll_unspotted es]

end

end Expr

/-- A host with room for so many nested calls, and the pictures of `Text.Pointer.draw`. -/
def Host.ofRoom (room : Nat) : Host where
  hasRoom e := e.textCalls ≤ room
  hasRoom_unspotted e := by rw [Expr.textCalls_unspotted]
  draw p text := .ok (p.draw text)
  exists_draw _ _ _ := ⟨_, rfl⟩

/-- Such a host shows errors as `Error.illustrate` has it. -/
theorem Host.illustrate_ofRoom (room : Nat) (e : Error) (text : String) :
    (Host.ofRoom room).illustrate e text = .ok (e.illustrate text) := by
  unfold illustrate Error.illustrate
  cases e.pointer? <;> rfl

/-- The host of the program: of a thousand calls, where each of ours counts twice, a command line
    itself takes a few. -/
def Host.usual : Host := .ofRoom 496

end Reckon
