/-
  Registries: the variables and functions that an expression may use, by name.

  Names are case-sensitive, and the last registration of a name wins
  (`find?_insert`).  Registries are changed in place, step by step.

  * `Registering`: steps that change a registry, up to one that is refused;
  * `Definitions.enter` registers a plain value as a variable;
  * `Functions.enter` registers a function;
  * `Scope` is what an evaluation looks names up in.
-/
import Reckon.Function

namespace Reckon

/-- Values by name. -/
structure Registry (α : Type) where
  entries : List (String × α)

namespace Registry

variable {α β : Type}

/-- No names. -/
def empty : Registry α := ⟨[]⟩

/-- The value of a name. -/
def find? (r : Registry α) (name : String) : Option α := r.entries.lookup name

/-- The registry with a name bound anew. -/
def insert (r : Registry α) (name : String) (value : α) : Registry α :=
  ⟨(name, value) :: r.entries.filter (·.1 ≠ name)⟩

/-- The registry with every value changed. -/
def map (f : α → β) (r : Registry α) : Registry β := ⟨r.entries.map fun e => (e.1, f e.2)⟩

/-- The names and values in order of the names. -/
def sorted (r : Registry α) : List (String × α) := r.entries.mergeSort fun a b => !(b.1 < a.1)

/-- The names in order. -/
def names (r : Registry α) : List String := r.sorted.map (·.1)

@[simp]
theorem find?_empty (name : String) : (empty : Registry α).find? name = none := rfl

theorem lookup_filter_ne {name other : String} (h : other ≠ name) (es : List (String × α)) :
    (es.filter (·.1 ≠ name)).lookup other = es.lookup other := by
  induction es with
  | nil => rfl
  | cons e es ih =>
    obtain ⟨k, v⟩ := e
    by_cases hk : k = name
    · have hb : (other == k) = false := by simpa [hk] using h
      rw [List.lookup_cons, hb, ← ih, List.filter_cons_of_neg (by simpa using hk)]
    · rw [List.filter_cons_of_pos (by simpa using hk), List.lookup_cons, List.lookup_cons, ih]

@[simp]
theorem find?_insert (r : Registry α) (name other : String) (value : α) :
    (r.insert name value).find? other = if other = name then some value else r.find? other := by
  unfold find? insert
  rw [List.lookup_cons]
  split
  · rename_i h
    simp only [beq_iff_eq] at h
    rw [if_pos h]
  · rename_i h
    have hn : other ≠ name := by simpa using h
    rw [if_neg hn, lookup_filter_ne hn]

@[simp]
theorem find?_map (f : α → β) (r : Registry α) (name : String) :
    (r.map f).find? name = (r.find? name).map f := by
  unfold find? map
  induction r.entries with
  | nil => rfl
  | cons e es ih =>
    obtain ⟨k, v⟩ := e
    rw [List.map_cons, List.lookup_cons, List.lookup_cons, ih]
    cases name == k <;> rfl

end Registry

/-- Variables by name. -/
abbrev Definitions := Registry Number

/-- Functions by name. -/
abbrev Functions := Registry Callable

/-! ## Registration -/

/-- Steps that change what is registered.  The first that is refused is the last, and what the steps
    before it have changed stays changed. -/
abbrev Registering (σ : Type) := ExceptT Rejection (StateM σ)

namespace Registering

variable {σ α β : Type}

/-- What steps come to, and what is registered after them. -/
def run (r : σ) (steps : Registering σ α) : Except Rejection α × σ :=
  StateT.run (ExceptT.run steps) r

/-- What is registered after steps, if none is refused. -/
def accepted (r : σ) (steps : Registering σ Unit) : Except Rejection σ :=
  (run r steps).1.map fun _ => (run r steps).2

theorem run_bind (r : σ) (steps : Registering σ α) (next : α → Registering σ β) :
    run r (steps >>= next) = match run r steps with
      | (.ok a, r') => run r' (next a)
      | (.error e, r') => (.error e, r') := by
  unfold run
  rw [ExceptT.run_bind, StateT.run_bind]
  rcases StateT.run (ExceptT.run steps) r with ⟨e | a, r'⟩
  · rfl
  · rfl

end Registering

/-- Binds a variable to a plain value, if the name is a text and the value a number. -/
def Definitions.enter (name value : PlainValue) : Registering Definitions Unit := do
  let x ← name.name
  let n ← Number.ofPlain value
  modify (·.insert x n)

/-- What is handed in for a function. -/
inductive Offer where
  | callable (f : Callable)
  | plain (value : PlainValue)

/-- Binds a function, if the name is a text and the thing a function. -/
def Functions.enter (name : PlainValue) (offer : Offer) : Registering Functions Unit := do
  let x ← name.name
  match offer with
  | .callable f => modify (·.insert x f)
  | .plain v => throw (.notFunction v)

/-- The variables after a registration, if it is accepted. -/
def Definitions.register (d : Definitions) (name value : PlainValue) :
    Except Rejection Definitions := Registering.accepted d (enter name value)

/-- The functions after a registration, if it is accepted. -/
def Functions.register (fs : Functions) (name : PlainValue) (offer : Offer) :
    Except Rejection Functions := Registering.accepted fs (enter name offer)

/-- The standard functions under their own names. -/
def Functions.standard : Functions :=
  ⟨StandardFunction.all.map fun f => (f.name, .standard f)⟩

/-! ## Scopes -/

/-- What names mean to an evaluation.  Variables are plain values and become
    numbers when they are used. -/
structure Scope where
  value? : String → Option PlainValue
  callable? : String → Option Callable

/-- The scope without any names. -/
def Scope.empty : Scope := ⟨fun _ => none, fun _ => none⟩

/-- The scope of registries, either of which may be missing. -/
def Scope.of (definitions : Option (Registry PlainValue)) (functions : Option Functions) : Scope :=
  ⟨fun x => definitions.bind (·.find? x), fun f => functions.bind (·.find? f)⟩

/-- Definitions as plain values. -/
def Definitions.plain (d : Definitions) : Registry PlainValue := d.map .number

end Reckon
