import Abacus.Binary64.Basic

/-!
# Environments

An environment binds names to numbers. A name that is bound again keeps its place, and a new one goes to the end.
-/

namespace Abacus

structure Env where
  bindings : List (String × Binary64)
  deriving DecidableEq

namespace Env

def empty : Env := ⟨[]⟩

def get? (env : Env) (name : String) : Option Binary64 := env.bindings.lookup name

/-- Puts a value in the place of the first binding of the name, or at the end. -/
def put (name : String) (value : Binary64) : List (String × Binary64) → List (String × Binary64)
  | [] => [(name, value)]
  | (other, old) :: rest => if name = other then (name, value) :: rest else (other, old) :: put name value rest

def insert (env : Env) (name : String) (value : Binary64) : Env := ⟨put name value env.bindings⟩

def erase (env : Env) (name : String) : Env := ⟨env.bindings.filter fun b => b.1 != name⟩

/-- The environment in which later bindings of a name replace earlier ones. -/
def ofList (bindings : List (String × Binary64)) : Env :=
  bindings.foldl (fun env b => env.insert b.1 b.2) empty

/-- Gives a name back the value that it had, or no value if it had none. -/
def restore (env : Env) (name : String) : Option Binary64 → Env
  | some value => env.insert name value
  | none => env.erase name

/-! ## Look-up -/

theorem get?_empty (name : String) : empty.get? name = none := rfl

theorem lookup_cons_of_ne {name other : String} (h : other ≠ name) (value : Binary64)
    (bs : List (String × Binary64)) : List.lookup other ((name, value) :: bs) = List.lookup other bs := by
  rw [List.lookup_cons, beq_false_of_ne h]

theorem get?_insert (env : Env) (name other : String) (value : Binary64) :
    (env.insert name value).get? other = if other = name then some value else env.get? other := by
  obtain ⟨bs⟩ := env
  simp only [insert, get?]
  induction bs with
  | nil =>
    by_cases h : other = name
    · simp [put, h]
    · rw [put, lookup_cons_of_ne h, if_neg h]
  | cons b bs ih =>
    obtain ⟨m, w⟩ := b
    by_cases hm : name = m
    · subst hm
      by_cases h : other = name
      · simp [put, h]
      · rw [put, if_pos rfl, lookup_cons_of_ne h, lookup_cons_of_ne h, if_neg h]
    · rw [put, if_neg hm]
      by_cases h : other = m
      · subst h; simp [List.lookup_cons_self, Ne.symm hm]
      · rw [lookup_cons_of_ne h, lookup_cons_of_ne h, ih]

theorem get?_erase (env : Env) (name other : String) :
    (env.erase name).get? other = if other = name then none else env.get? other := by
  obtain ⟨bs⟩ := env
  simp only [erase, get?]
  induction bs with
  | nil => simp
  | cons b bs ih =>
    obtain ⟨m, w⟩ := b
    by_cases hm : m = name
    · subst hm
      by_cases h : other = m
      · simpa [h] using ih
      · simpa [h, lookup_cons_of_ne h] using ih
    · by_cases h : other = m
      · subst h; simp [List.lookup_cons_self, hm]
      · simpa [hm, lookup_cons_of_ne h] using ih

/-! ## Closing a scope -/

theorem put_put (name : String) (v w : Binary64) (bs : List (String × Binary64)) :
    put name w (put name v bs) = put name w bs := by
  induction bs with
  | nil => simp [put]
  | cons b bs ih => by_cases h : name = b.1 <;> simp [put, h, ih]

theorem put_of_lookup {name : String} {value : Binary64} {bs : List (String × Binary64)}
    (h : List.lookup name bs = some value) : put name value bs = bs := by
  induction bs with
  | nil => simp at h
  | cons b bs ih =>
    obtain ⟨m, w⟩ := b
    by_cases hm : name = m
    · subst hm; simp at h; simp [put, h]
    · rw [lookup_cons_of_ne hm] at h; simp [put, hm, ih h]

theorem filter_put_of_lookup {name : String} (value : Binary64) {bs : List (String × Binary64)}
    (h : List.lookup name bs = none) : (put name value bs).filter (fun b => b.1 != name) = bs := by
  induction bs with
  | nil => simp [put]
  | cons b bs ih =>
    obtain ⟨m, w⟩ := b
    by_cases hm : name = m
    · subst hm; simp at h
    · rw [lookup_cons_of_ne hm] at h; simp [put, hm, Ne.symm hm, ih h]

theorem restore_insert (env : Env) (name : String) (value : Binary64) :
    (env.insert name value).restore name (env.get? name) = env := by
  obtain ⟨bs⟩ := env
  cases h : List.lookup name bs with
  | none => simp [get?, h, restore, insert, erase, filter_put_of_lookup value h]
  | some old => simp [get?, h, restore, insert, put_put, put_of_lookup h]

end Env

end Abacus
