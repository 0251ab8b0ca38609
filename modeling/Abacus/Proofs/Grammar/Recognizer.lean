import Abacus.Grammar

/-!
# A recognizer for the grammar

The grammar is ambiguous, but what may follow a text is not: it depends on the place in the last operand and on the
parts that are still open. A machine with a stack of open parts accepts exactly the expressions, and it gives up at the
first lexeme after which no expression can come of the text.
-/

namespace Abacus

namespace Recognizer

/-- A part that is still open: a parenthesis or the bound part of a `let`. -/
inductive Opening where
  | parenthesis
  | bound
  deriving DecidableEq

def Opening.closer : Opening → Lexeme
  | parenthesis => .closeParen
  | bound => .inWord

/-- What comes next: an operand, an operator or an end, the name of a `let`, its equals sign. A name may still become a
call. -/
inductive Place where
  | operand
  | operator (afterName : Bool)
  | boundName
  | equalsSign
  deriving DecidableEq

end Recognizer

structure Recognizer where
  place : Recognizer.Place
  pending : List Recognizer.Opening
  deriving DecidableEq

namespace Recognizer

def start : Recognizer := ⟨.operand, []⟩

def next : Recognizer → Lexeme → Option Recognizer
  | ⟨.operand, σ⟩, .number _ => some ⟨.operator false, σ⟩
  | ⟨.operand, σ⟩, .name _ => some ⟨.operator true, σ⟩
  | ⟨.operand, σ⟩, .openParen => some ⟨.operand, .parenthesis :: σ⟩
  | ⟨.operand, σ⟩, .operator op => if op ∈ Operator.signs then some ⟨.operand, σ⟩ else none
  | ⟨.operand, σ⟩, .letWord => some ⟨.boundName, σ⟩
  | ⟨.boundName, σ⟩, .name _ => some ⟨.equalsSign, σ⟩
  | ⟨.equalsSign, σ⟩, .equals => some ⟨.operand, .bound :: σ⟩
  | ⟨.operator _, σ⟩, .operator _ => some ⟨.operand, σ⟩
  | ⟨.operator true, σ⟩, .openParen => some ⟨.operand, .parenthesis :: σ⟩
  | ⟨.operator _, .parenthesis :: σ⟩, .closeParen => some ⟨.operator false, σ⟩
  | ⟨.operator _, .bound :: σ⟩, .inWord => some ⟨.operand, σ⟩
  | _, _ => none

def run (s : Recognizer) : List Lexeme → Option Recognizer
  | [] => some s
  | l :: w => (s.next l).bind fun t => t.run w

def Accepting (s : Recognizer) : Prop := ∃ c, s = ⟨.operator c, []⟩

theorem run_append (s : Recognizer) (v w : List Lexeme) : s.run (v ++ w) = (s.run v).bind fun t => t.run w := by
  induction v generalizing s with
  | nil => rfl
  | cons l v ih =>
      simp only [List.cons_append, run]
      cases s.next l with
      | none => rfl
      | some t => exact ih t

theorem run_append_of_run {s t : Recognizer} {v : List Lexeme} (h : s.run v = some t) (w : List Lexeme) :
    s.run (v ++ w) = t.run w := by
  rw [run_append, h, Option.bind_some]

theorem run_cons_of_next {s t : Recognizer} {l : Lexeme} (h : s.next l = some t) (w : List Lexeme) :
    s.run (l :: w) = t.run w := by
  rw [run, h, Option.bind_some]

theorem run_singleton (s : Recognizer) (l : Lexeme) : s.run [l] = s.next l := by
  simp [run]

/-! ## Expressions are accepted -/

theorem next_operator_operator (c : Bool) (σ : List Opening) (op : Operator) :
    next ⟨.operator c, σ⟩ (.operator op) = some ⟨.operand, σ⟩ := by
  cases c <;> rfl

theorem next_operator_closeParen (c : Bool) (σ : List Opening) :
    next ⟨.operator c, .parenthesis :: σ⟩ .closeParen = some ⟨.operator false, σ⟩ := by
  cases c <;> rfl

theorem next_operator_inWord (c : Bool) (σ : List Opening) :
    next ⟨.operator c, .bound :: σ⟩ .inWord = some ⟨.operand, σ⟩ := by
  cases c <;> rfl

theorem next_operand_sign {op : Operator} (h : op ∈ Operator.signs) (σ : List Opening) :
    next ⟨.operand, σ⟩ (.operator op) = some ⟨.operand, σ⟩ := if_pos h

/-- Whatever the parts around it, an expression takes the machine from an operand's place to behind an operand. -/
theorem run_of_derives {c : Category} {w : List Lexeme} (h : Derives c w) (σ : List Opening) :
    ∃ a, run ⟨.operand, σ⟩ w = some ⟨.operator a, σ⟩ := by
  induction h generalizing σ with
  | operand _ ih => exact ih σ
  | binop op _ _ ihv ihw =>
      obtain ⟨a, ha⟩ := ihv σ
      obtain ⟨b, hb⟩ := ihw σ
      exact ⟨b, by rw [run_append_of_run ha, run_cons_of_next (next_operator_operator a σ op), hb]⟩
  | number value => exact ⟨false, rfl⟩
  | var name => exact ⟨true, rfl⟩
  | call name _ ih =>
      obtain ⟨a, ha⟩ := ih (.parenthesis :: σ)
      refine ⟨false, ?_⟩
      rw [List.cons_append, List.cons_append, run_cons_of_next rfl, run_cons_of_next rfl, run_append_of_run ha,
        run_singleton, next_operator_closeParen]
  | paren _ ih =>
      obtain ⟨a, ha⟩ := ih (.parenthesis :: σ)
      exact ⟨false, by
        rw [List.cons_append, run_cons_of_next rfl, run_append_of_run ha, run_singleton, next_operator_closeParen]⟩
  | signed op hop _ ih =>
      obtain ⟨a, ha⟩ := ih σ
      exact ⟨a, by rw [run_cons_of_next (next_operand_sign hop σ), ha]⟩
  | letIn name _ _ ihv ihw =>
      obtain ⟨a, ha⟩ := ihv (.bound :: σ)
      obtain ⟨b, hb⟩ := ihw σ
      refine ⟨b, ?_⟩
      rw [List.cons_append, List.cons_append, List.cons_append, run_cons_of_next rfl, run_cons_of_next rfl,
        run_cons_of_next rfl, run_append_of_run ha, run_cons_of_next (next_operator_inWord a σ), hb]

/-! ## What the machine still waits for -/

/-- Operators with their right operands. -/
inductive Operations : List Lexeme → Prop
  | nil : Operations []
  | cons {v w} (op : Operator) : Derives .operand v → Operations w → Operations (.operator op :: v ++ w)

theorem derives_append_operations {v u : List Lexeme} (hv : Derives .expression v) (hu : Operations u) :
    Derives .expression (v ++ u) := by
  induction hu generalizing v with
  | nil => rwa [List.append_nil]
  | @cons x w op hx _ ih => simpa using ih (hv.binop op (.operand hx))

/-- The text goes on behind an operand and ends the open parts, from the inside out. -/
inductive Closes : List Opening → List Lexeme → Prop
  | done {u} : Operations u → Closes [] u
  | parenthesis {σ u z} : Operations u → Closes σ z → Closes (.parenthesis :: σ) (u ++ .closeParen :: z)
  | bound {σ u v z} : Operations u → Derives .operand v → Closes σ z →
      Closes (.bound :: σ) (u ++ .inWord :: (v ++ z))

theorem Closes.cons_operation {σ : List Opening} {v z : List Lexeme} (op : Operator) (hv : Derives .operand v)
    (h : Closes σ z) : Closes σ (.operator op :: v ++ z) := by
  cases h with
  | done hu => exact .done (.cons op hv hu)
  | parenthesis hu hz => simpa using Closes.parenthesis (hu.cons op hv) hz
  | bound hu hx hz => simpa using Closes.bound (hu.cons op hv) hx hz

theorem exists_closes (σ : List Opening) : ∃ z, Closes σ z := by
  induction σ with
  | nil => exact ⟨_, .done .nil⟩
  | cons o σ ih =>
      obtain ⟨z, hz⟩ := ih
      cases o with
      | parenthesis => exact ⟨_, .parenthesis .nil hz⟩
      | bound => exact ⟨_, .bound .nil (.number .zero) hz⟩

/-- The texts that complete what the machine has read. -/
inductive Completes : Recognizer → List Lexeme → Prop
  | operand {σ v z} : Derives .operand v → Closes σ z → Completes ⟨.operand, σ⟩ (v ++ z)
  | operator {c σ z} : Closes σ z → Completes ⟨.operator c, σ⟩ z
  | argument {σ v z} : Derives .expression v → Closes σ z →
      Completes ⟨.operator true, σ⟩ (.openParen :: v ++ .closeParen :: z)
  | boundName {σ v w z} (name : String) : Derives .expression v → Derives .operand w → Closes σ z →
      Completes ⟨.boundName, σ⟩ (.name name :: .equals :: v ++ .inWord :: (w ++ z))
  | equalsSign {σ v w z} : Derives .expression v → Derives .operand w → Closes σ z →
      Completes ⟨.equalsSign, σ⟩ (.equals :: v ++ .inWord :: (w ++ z))

theorem exists_completes (s : Recognizer) : ∃ w, s.Completes w := by
  obtain ⟨place, σ⟩ := s
  obtain ⟨z, hz⟩ := exists_closes σ
  have zero : Derives .operand [.number .zero] := .number .zero
  cases place with
  | operand => exact ⟨_, .operand zero hz⟩
  | operator c => exact ⟨_, .operator hz⟩
  | boundName => exact ⟨_, .boundName "" (.operand zero) zero hz⟩
  | equalsSign => exact ⟨_, .equalsSign (.operand zero) zero hz⟩

/-! ## What is accepted are expressions -/

/-- What completes a text behind an operand also completes it in front of that operand. -/
theorem completes_operand {σ : List Opening} {v w : List Lexeme} {c : Bool} (hv : Derives .operand v)
    (h : Completes ⟨.operator c, σ⟩ w) (hc : c = true → ∃ name, v = [.name name]) :
    Completes ⟨.operand, σ⟩ (v ++ w) := by
  cases h with
  | operator hz => exact .operand hv hz
  | @argument _ x z hx hz =>
      obtain ⟨name, rfl⟩ := hc rfl
      simpa using Completes.operand (hx.call name) hz

theorem completes_of_next {s t : Recognizer} {l : Lexeme} {w : List Lexeme} (hn : s.next l = some t)
    (h : t.Completes w) : s.Completes (l :: w) := by
  obtain ⟨place, σ⟩ := s
  cases place with
  | operand =>
      cases l with
      | number value =>
          cases hn
          exact completes_operand (.number value) h (by simp)
      | name name =>
          cases hn
          exact completes_operand (.var name) h fun _ => ⟨name, rfl⟩
      | openParen =>
          cases hn
          cases h with
          | operand hv hz =>
              cases hz with
              | parenthesis hu hz =>
                  have hx := derives_append_operations (.operand hv) hu
                  simpa using Completes.operand hx.paren hz
      | operator op =>
          simp only [next] at hn
          split at hn
          · rename_i hop
            cases hn
            cases h with
            | operand hv hz => exact .operand (hv.signed op hop) hz
          · cases hn
      | letWord =>
          cases hn
          cases h with
          | boundName name hv hw hz => simpa using Completes.operand (hv.letIn name (.operand hw)) hz
      | closeParen | inWord | equals => cases hn
  | operator c =>
      cases l with
      | operator op =>
          rw [next_operator_operator] at hn
          cases hn
          cases h with
          | operand hv hz => exact .operator (hz.cons_operation op hv)
      | openParen =>
          cases c with
          | false => cases hn
          | true =>
              cases hn
              cases h with
              | operand hv hz =>
                  cases hz with
                  | parenthesis hu hz =>
                      have hx := derives_append_operations (.operand hv) hu
                      simpa using Completes.argument hx hz
      | closeParen =>
          match σ, hn with
          | .parenthesis :: σ, hn =>
              rw [next_operator_closeParen] at hn
              cases hn
              cases h with
              | operator hz => exact .operator (.parenthesis .nil hz)
      | inWord =>
          match σ, hn with
          | .bound :: σ, hn =>
              rw [next_operator_inWord] at hn
              cases hn
              cases h with
              | operand hv hz => exact .operator (.bound .nil hv hz)
      | number _ | name _ | letWord | equals => cases c <;> cases hn
  | boundName =>
      cases l with
      | name name =>
          cases hn
          cases h with
          | equalsSign hv hw hz => exact .boundName name hv hw hz
      | _ => cases hn
  | equalsSign =>
      cases l with
      | equals =>
          cases hn
          cases h with
          | operand hv hz =>
              cases hz with
              | bound hu hw hz =>
                  have hx := derives_append_operations (.operand hv) hu
                  simpa using Completes.equalsSign hx hw hz
      | _ => cases hn

theorem completes_of_run {s t : Recognizer} {v w : List Lexeme} (hr : s.run v = some t) (h : t.Completes w) :
    s.Completes (v ++ w) := by
  induction v generalizing s with
  | nil => cases hr; exact h
  | cons l v ih =>
      obtain ⟨u, hu, hr⟩ := Option.bind_eq_some_iff.1 hr
      exact completes_of_next hu (ih hr)

theorem derives_of_completes_start {w : List Lexeme} (h : start.Completes w) : Derives .expression w := by
  cases h with
  | operand hv hz =>
      cases hz with
      | done hu => exact derives_append_operations (.operand hv) hu

end Recognizer

open Recognizer

/-- The machine accepts exactly the expressions. -/
theorem derives_iff_accepting {w : List Lexeme} :
    Derives .expression w ↔ ∃ s, Recognizer.start.run w = some s ∧ s.Accepting := by
  constructor
  · intro h
    obtain ⟨c, hc⟩ := run_of_derives h []
    exact ⟨_, hc, c, rfl⟩
  · rintro ⟨_, hr, c, rfl⟩
    have h := completes_of_run hr (.operator (.done .nil))
    rw [List.append_nil] at h
    exact derives_of_completes_start h

/-- The machine gives up exactly on the texts that no expression starts with. -/
theorem viable_iff_run {w : List Lexeme} : Viable w ↔ ∃ s, Recognizer.start.run w = some s := by
  constructor
  · rintro ⟨v, hv⟩
    obtain ⟨c, hc⟩ := run_of_derives hv []
    rw [run_append] at hc
    obtain ⟨s, hs, -⟩ := Option.bind_eq_some_iff.1 hc
    exact ⟨s, hs⟩
  · rintro ⟨s, hs⟩
    obtain ⟨v, hv⟩ := exists_completes s
    exact ⟨v, derives_of_completes_start (completes_of_run hs hv)⟩

end Abacus
