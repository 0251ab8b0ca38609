import Abacus.Proofs.Lexing.Tokens
import Abacus.Tokenizer.Calls

/-!
# Tokenizers under any calls

A tokenizer is open until it reports the end. Up to then each call hands out the next of the tokens that are left, or it
changes nothing; the report leaves the tokenizer that is behind all tokens, and from there on only the fault changes,
when it is collected. So every law of a sequence of calls comes from what one call does to an open tokenizer and to a
finished one.
-/

namespace Abacus.Tokenizer

variable {t : Tokenizer} {calls : List Call} {source : List Char}

/-! ## Open tokenizers -/

/-- The end was not met. -/
structure Open (t : Tokenizer) : Prop where
  finished : t.finished = false
  pending : t.pending? = none

theorem open_ofSource (source : List Char) : (ofSource source).Open := ⟨rfl, rfl⟩

theorem Open.of_next {u : Tokenizer} {token : Token} (h : t.Open) (hn : t.next = (some token, u)) : u.Open := by
  rcases next_cases h.finished with ⟨-, hn'⟩ | ⟨c, cs, n, l, -, -, hn'⟩ | ⟨c, cs, n, cause, -, -, hn'⟩ <;>
    rw [hn] at hn' <;> cases hn'
  exact ⟨h.finished, h.pending⟩

theorem position_of_next {u : Tokenizer} {token : Token} (hn : t.next = (some token, u)) :
    (u.cursor.position : Int) = token.span.stop := by
  cases hf : t.finished with
  | true =>
      rw [next_of_finished hf] at hn
      cases hn
  | false =>
      rcases next_cases hf with ⟨-, hn'⟩ | ⟨c, cs, n, l, -, -, hn'⟩ | ⟨c, cs, n, cause, -, -, hn'⟩ <;>
        rw [hn] at hn' <;> cases hn'
      simp [Cursor.skip, Span.stop]

theorem finished_drain (t : Tokenizer) : t.drain.2.finished = true := by
  cases hn : t.next with
  | mk token u =>
      cases token with
      | none =>
          rw [drain_of_next_eq_none hn]
          exact finished_of_next_eq_none hn
      | some token =>
          have := rest_lt_of_next hn
          rw [drain_of_next_eq_some hn]
          exact finished_drain u
termination_by t.cursor.rest.length

/-- Without a fault, the end is met behind the last character. -/
theorem position_drain (t : Tokenizer) (h : t.Open) (hp : t.cursor.position ≤ t.cursor.source.length) :
    (t.drain.2.cursor.position : Int) =
      t.drain.2.pending?.elim (t.cursor.source.length : Int) fun fault => fault.span.stop := by
  rcases next_cases h.finished with ⟨hs, hn⟩ | ⟨c, cs, n, l, hs, hscan, hn⟩ | ⟨c, cs, n, cause, -, -, hn⟩
  · rw [drain_of_next_eq_none hn]
    have hrest : t.cursor.rest.takeWhile Text.isBlank = t.cursor.rest := by
      rw [rest_start] at hs
      simpa [hs] using List.takeWhile_append_dropWhile (p := Text.isBlank) (l := t.cursor.rest)
    have hlength : t.cursor.rest.length = t.cursor.source.length - t.cursor.position := List.length_drop
    simp only [h.pending, Option.elim_none, position_start, hrest]
    omega
  · have := rest_lt_of_next hn
    have hle := Scan.ofStart_length_le c cs
    rw [hscan, ← hs] at hle
    have hstart : t.start.position ≤ t.cursor.source.length := by
      have hwhile := (List.takeWhile_sublist Text.isBlank (l := t.cursor.rest)).length_le
      have hlength : t.cursor.rest.length = t.cursor.source.length - t.cursor.position := List.length_drop
      rw [position_start]
      omega
    have hlength : t.start.rest.length = t.cursor.source.length - t.start.position := List.length_drop
    have hskip : t.start.position + n ≤ t.cursor.source.length := by simp only at hle; omega
    rw [drain_of_next_eq_some hn]
    exact position_drain _ (h.of_next hn) hskip
  · rw [drain_of_next_eq_none hn]
    simp [Cursor.skip, Span.stop]
termination_by t.cursor.rest.length

/-! ## One call -/

theorem Answer.fault?_eq_none {a : Answer} (h : ∀ popped?, a ≠ .fault popped?) : a.fault? = none := by
  cases a with
  | fault popped? => exact absurd rfl (h popped?)
  | token | ended | stopped | tokens => rfl

/-- A call of an open tokenizer hands out the tokens that come next, or it reports the end and leaves the tokenizer that
is behind all tokens. -/
theorem Open.reply_cases (h : t.Open) (call : Call) :
    ((t.reply call).answer.reportsEnd = false ∧ (t.reply call).answer.fault? = none ∧ (t.reply call).after.Open ∧
      t.drain = ((t.reply call).answer.handed ++ (t.reply call).after.drain.1, (t.reply call).after.drain.2)) ∨
    ((t.reply call).answer.reportsEnd = true ∧ (t.reply call).answer.fault? = none ∧
      t.drain = ((t.reply call).answer.handed, (t.reply call).after)) := by
  cases hn : t.next with
  | mk token u =>
      cases call with
      | next | iterate =>
          cases token with
          | none =>
              have hd := drain_of_next_eq_none hn
              exact .inr (by simp [reply, hn, hd, Answer.reportsEnd, Answer.fault?, Answer.handed])
          | some token =>
              refine .inl ⟨by simp [reply, hn, Answer.reportsEnd], by simp [reply, hn, Answer.fault?], ?_, ?_⟩
              · simpa [reply, hn] using h.of_next hn
              · simp [reply, hn, Answer.handed, drain_of_next_eq_some hn]
      | drain => exact .inr ⟨rfl, rfl, rfl⟩
      | popFault =>
          have ht : t.popFault = (none, t) := by rw [popFault, h.pending, ← h.pending]
          exact .inl (by simp [reply, ht, Answer.reportsEnd, Answer.fault?, Answer.handed, h])

/-- A finished tokenizer only loses its fault, when that is collected. -/
theorem reply_cases_of_finished (h : t.finished = true) (call : Call) :
    ((t.reply call).answer.handed = [] ∧ (t.reply call).after = t ∧ ∀ fault?, (t.reply call).answer ≠ .fault fault?) ∨
    ((t.reply call).answer = .fault t.pending? ∧ (t.reply call).after = { t with pending? := none }) := by
  have hn := next_of_finished h
  have hd := drain_of_finished h
  cases call with
  | next | iterate => exact .inl (by simp [reply, hn, Answer.handed])
  | drain => exact .inl (by simp [reply, hd, Answer.handed])
  | popFault => exact .inr ⟨rfl, rfl⟩

/-! ## Sequences of calls -/

theorem exists_of_mem_replies {r : Reply} (h : r ∈ t.replies calls) : ∃ u call, r = reply u call := by
  induction calls generalizing t with
  | nil => cases h
  | cons call calls ih =>
      rcases List.mem_cons.1 h with rfl | h
      · exact ⟨t, call, rfl⟩
      · exact ih h

theorem exists_of_replies_eq_cons {r : Reply} {after : List Reply} (h : t.replies calls = r :: after) :
    ∃ (call : Call) (calls' : List Call), r = t.reply call ∧ r.after.replies calls' = after := by
  cases calls with
  | nil => cases h
  | cons call calls =>
      obtain ⟨rfl, hafter⟩ := List.cons.inj h
      exact ⟨call, calls, rfl, hafter⟩

theorem position_of_token {r : Reply} (h : r ∈ t.replies calls) {token : Token} (ha : r.answer = .token token) :
    (r.after.cursor.position : Int) = token.span.stop := by
  obtain ⟨u, call, rfl⟩ := exists_of_mem_replies h
  cases hn : u.next with
  | mk token' v =>
      cases call with
      | next | iterate =>
          cases token' with
          | none => simp [reply, hn] at ha
          | some token' =>
              simp only [reply, hn, Option.elim_some, Answer.token.injEq] at ha ⊢
              rw [← ha]
              exact position_of_next hn
      | drain | popFault => cases ha

/-! ### Behind the end -/

theorem exists_of_mem_replies_of_finished (h : t.finished = true) {r : Reply} (hr : r ∈ t.replies calls) :
    ∃ (u : Tokenizer) (call : Call), r = u.reply call ∧ (u = t ∨ u = { t with pending? := none }) := by
  induction calls generalizing t with
  | nil => cases hr
  | cons call calls ih =>
      rcases List.mem_cons.1 hr with rfl | hr
      · exact ⟨t, call, rfl, .inl rfl⟩
      · rcases reply_cases_of_finished h call with ⟨-, ha, -⟩ | ⟨-, ha⟩ <;> rw [ha] at hr
        · exact ih h hr
        · obtain ⟨u, call', hu, hut⟩ := ih (t := { t with pending? := none }) h hr
          exact ⟨u, call', hu, .inr (hut.elim id id)⟩

theorem replies_of_finished (h : t.finished = true) {r : Reply} (hr : r ∈ t.replies calls) :
    r.answer.handed = [] ∧ r.after.cursor.position = t.cursor.position := by
  obtain ⟨u, call, rfl, hut⟩ := exists_of_mem_replies_of_finished h hr
  obtain ⟨hu, hc⟩ : u.finished = true ∧ u.cursor = t.cursor := by
    rcases hut with rfl | rfl <;> exact ⟨h, rfl⟩
  rcases reply_cases_of_finished hu call with ⟨hh, ha, -⟩ | ⟨hp, ha⟩
  · exact ⟨hh, by rw [ha, hc]⟩
  · exact ⟨by rw [hp]; rfl, by rw [ha, hc]⟩

theorem fault?_of_mem_replies_of_finished (h : t.finished = true) {r : Reply} (hr : r ∈ t.replies calls)
    {fault : LexicalFault} (hf : r.answer.fault? = some fault) : t.pending? = some fault := by
  obtain ⟨u, call, rfl, hut⟩ := exists_of_mem_replies_of_finished h hr
  obtain ⟨hu, hp⟩ : u.finished = true ∧ (u.pending? = some fault → t.pending? = some fault) := by
    rcases hut with rfl | rfl
    · exact ⟨h, id⟩
    · exact ⟨h, nofun⟩
  rcases reply_cases_of_finished hu call with ⟨-, -, hn⟩ | ⟨ha, -⟩
  · rw [Answer.fault?_eq_none hn] at hf
    cases hf
  · rw [ha] at hf
    exact hp hf

theorem first_fault_of_finished (h : t.finished = true) {between after : List Reply} {r : Reply}
    {popped? : Option LexicalFault} (hs : t.replies calls = between ++ r :: after)
    (hb : ∀ s ∈ between, ∀ popped?, s.answer ≠ .fault popped?) (hr : r.answer = .fault popped?) :
    popped? = t.pending? := by
  induction between generalizing calls with
  | nil =>
      obtain ⟨call, calls, rfl, -⟩ := exists_of_replies_eq_cons hs
      rcases reply_cases_of_finished h call with ⟨-, -, hn⟩ | ⟨hp, -⟩
      · exact absurd hr (hn popped?)
      · rw [hp] at hr
        cases hr
        rfl
  | cons s between ih =>
      obtain ⟨call, calls, rfl, hrest⟩ := exists_of_replies_eq_cons hs
      rcases reply_cases_of_finished h call with ⟨-, ha, -⟩ | ⟨hp, -⟩
      · rw [ha] at hrest
        exact ih hrest fun s hs => hb s (List.mem_cons_of_mem _ hs)
      · exact absurd hp (hb _ List.mem_cons_self _)

/-! ### From the start -/

theorem finished_after_end {call : Call} (h : (t.reply call).answer.reportsEnd = true) :
    (t.reply call).after.finished = true := by
  cases hn : t.next with
  | mk token u =>
      cases call with
      | next | iterate =>
          cases token with
          | none => simpa [reply, hn] using finished_of_next_eq_none hn
          | some token => simp [reply, hn, Answer.reportsEnd] at h
      | drain => exact finished_drain t
      | popFault => cases h

theorem pairwise_end (t : Tokenizer) (calls : List Call) : (t.replies calls).Pairwise fun r s =>
    r.answer.reportsEnd = true → s.answer.handed = [] ∧ s.after.cursor.position = r.after.cursor.position := by
  induction calls generalizing t with
  | nil => exact .nil
  | cons call calls ih =>
      exact .cons (fun s hs he => replies_of_finished (finished_after_end he) hs) (ih _)

theorem Open.handed_replies (h : t.Open) (calls : List Call) :
    (t.replies calls).flatMap (·.answer.handed) <+: t.drain.1 := by
  induction calls generalizing t with
  | nil => exact List.nil_prefix
  | cons call calls ih =>
      rw [replies, List.flatMap_cons]
      rcases h.reply_cases call with ⟨-, -, ho, hd⟩ | ⟨he, -, hd⟩
      · rw [hd]
        exact (List.prefix_append_right_inj _).2 (ih ho)
      · have hnil : ((t.reply call).after.replies calls).flatMap (·.answer.handed) = [] :=
          List.flatMap_eq_nil_iff.2 fun s hs => (replies_of_finished (finished_after_end he) hs).1
        exact ⟨[], by rw [hnil, hd, List.append_nil, List.append_nil]⟩

theorem Open.position_of_end (h : t.Open) {r : Reply} (hr : r ∈ t.replies calls) (he : r.answer.reportsEnd = true) :
    r.after.cursor.position = t.drain.2.cursor.position := by
  induction calls generalizing t with
  | nil => cases hr
  | cons call calls ih =>
      rw [replies, List.mem_cons] at hr
      rcases h.reply_cases call with ⟨hn, -, ho, hd⟩ | ⟨he', -, hd⟩
      · rcases hr with rfl | hr
        · rw [hn] at he
          cases he
        · rw [hd]
          exact ih ho hr
      · rw [hd]
        rcases hr with rfl | hr
        · rfl
        · exact (replies_of_finished (finished_after_end he') hr).2

theorem pairwise_fault (h : t.Open ∨ t.finished = true) (calls : List Call) :
    (t.replies calls).Pairwise fun r s => r.answer.fault? ≠ none → s.answer.fault? = none := by
  induction calls generalizing t with
  | nil => exact .nil
  | cons call calls ih =>
      rcases h with ho | hf
      · rcases ho.reply_cases call with ⟨-, hn, ho', -⟩ | ⟨he, hn, -⟩
        · exact .cons (fun _ _ hne => absurd hn hne) (ih (.inl ho'))
        · exact .cons (fun _ _ hne => absurd hn hne) (ih (.inr (finished_after_end he)))
      · rcases reply_cases_of_finished hf call with ⟨-, ha, hn⟩ | ⟨-, ha⟩
        · exact .cons (fun _ _ hne => absurd (Answer.fault?_eq_none hn) hne) (ih (.inr (by rw [ha, hf])))
        · -- The fault may be handed out here, and then none is left.
          refine .cons (fun s hs _ => ?_) (ih (.inr (by rw [ha]; exact hf)))
          rw [ha] at hs
          cases hc : s.answer.fault? with
          | none => rfl
          | some fault => cases fault?_of_mem_replies_of_finished (t := { t with pending? := none }) hf hs hc

theorem Open.fault_behind_end (h : t.Open) {before after : List Reply} {r : Reply} {fault : LexicalFault}
    (hs : t.replies calls = before ++ r :: after) (hf : r.answer.fault? = some fault) :
    (∃ s ∈ before, s.answer.reportsEnd = true) ∧ t.drain.2.pending? = some fault := by
  induction before generalizing t calls with
  | nil =>
      obtain ⟨call, calls, rfl, -⟩ := exists_of_replies_eq_cons hs
      rcases h.reply_cases call with ⟨-, hn, -, -⟩ | ⟨-, hn, -⟩ <;> rw [hn] at hf <;> cases hf
  | cons s before ih =>
      obtain ⟨call, calls, rfl, hrest⟩ := exists_of_replies_eq_cons hs
      rcases h.reply_cases call with ⟨-, -, ho, hd⟩ | ⟨he, -, hd⟩
      · rw [hd]
        obtain ⟨⟨s, hmem, he⟩, hp⟩ := ih ho hrest
        exact ⟨⟨s, List.mem_cons_of_mem _ hmem, he⟩, hp⟩
      · have hr : r ∈ (t.reply call).after.replies calls := by
          rw [hrest]
          exact List.mem_append_right _ List.mem_cons_self
        refine ⟨⟨_, List.mem_cons_self, he⟩, ?_⟩
        rw [hd]
        exact fault?_of_mem_replies_of_finished (finished_after_end he) hr hf

theorem Open.first_fault (h : t.Open) {before between after : List Reply} {e r : Reply}
    {popped? : Option LexicalFault} (hs : t.replies calls = before ++ e :: between ++ r :: after)
    (hn : ∀ s ∈ before, s.answer.reportsEnd = false) (he : e.answer.reportsEnd = true)
    (hb : ∀ s ∈ between, ∀ popped?, s.answer ≠ .fault popped?) (hr : r.answer = .fault popped?) :
    popped? = t.drain.2.pending? := by
  induction before generalizing t calls with
  | nil =>
      obtain ⟨call, calls, rfl, hrest⟩ := exists_of_replies_eq_cons hs
      rcases h.reply_cases call with ⟨hn, -⟩ | ⟨-, -, hd⟩
      · rw [hn] at he
        cases he
      · rw [hd]
        exact first_fault_of_finished (finished_after_end he) hrest hb hr
  | cons s before ih =>
      obtain ⟨call, calls, rfl, hrest⟩ := exists_of_replies_eq_cons hs
      rcases h.reply_cases call with ⟨-, -, ho, hd⟩ | ⟨he', -⟩
      · rw [hd]
        exact ih ho hrest fun s hs => hn s (List.mem_cons_of_mem _ hs)
      · rw [hn _ List.mem_cons_self] at he'
        cases he'

/-! ## The law of a sequence of calls -/

/-- What the replies to a sequence of calls keep to, for a tokenizer of the source. -/
structure Orderly (source : List Char) (replies : List Reply) : Prop where
  /-- The tokens come in order, none left out and none twice. -/
  handed : replies.flatMap (·.answer.handed) <+: (lex source).1
  /-- Behind the end there is no token, and the place stays. -/
  ended : replies.Pairwise fun r s =>
    r.answer.reportsEnd = true → s.answer.handed = [] ∧ s.after.cursor.position = r.after.cursor.position
  /-- A fault is collected once. -/
  once : replies.Pairwise fun r s => r.answer.fault? ≠ none → s.answer.fault? = none
  /-- A fault is collected only behind the end, and it is the fault of the source. -/
  behind : ∀ before r after fault, replies = before ++ r :: after → r.answer = .fault (some fault) →
    (∃ s ∈ before, s.answer.reportsEnd = true) ∧ tokenize source = .error fault
  /-- The first collection behind the first report of the end gets the fault of the source. -/
  first : ∀ before e between r after popped? fault, replies = before ++ e :: between ++ r :: after →
    (∀ s ∈ before, s.answer.reportsEnd = false) → e.answer.reportsEnd = true →
    (∀ s ∈ between, ∀ popped?, s.answer ≠ .fault popped?) → r.answer = .fault popped? →
    tokenize source = .error fault → popped? = some fault
  /-- A token leaves the place behind its span. -/
  token_place : ∀ r ∈ replies, ∀ token, r.answer = .token token → (r.after.cursor.position : Int) = token.span.stop
  /-- A fault leaves the place behind its span. -/
  fault_place : ∀ r ∈ replies, r.answer.reportsEnd = true → ∀ fault, tokenize source = .error fault →
    (r.after.cursor.position : Int) = fault.span.stop
  end_place : ∀ r ∈ replies, r.answer.reportsEnd = true → ∀ tokens, tokenize source = .ok tokens →
    r.after.cursor.position = source.length

theorem pending_drain_ofSource {fault : LexicalFault} :
    (ofSource source).drain.2.pending? = some fault ↔ tokenize source = .error fault :=
  tokenize_eq_error_iff.symm

/-- Whatever is asked of a tokenizer and in whatever order, it hands out the tokens of its source one after the other,
then stays where they end, and hands out the fault of the source once. -/
theorem orderly_replies (source : List Char) (calls : List Call) : Orderly source ((ofSource source).replies calls) := by
  have ho := open_ofSource source
  have hplace := position_drain (ofSource source) ho (Nat.zero_le _)
  constructor
  case handed => exact ho.handed_replies calls
  case ended => exact pairwise_end _ calls
  case once => exact pairwise_fault (.inl ho) calls
  case behind =>
    intro before r after fault hs hr
    have hf : r.answer.fault? = some fault := by rw [hr]; rfl
    obtain ⟨he, hp⟩ := ho.fault_behind_end hs hf
    exact ⟨he, pending_drain_ofSource.1 hp⟩
  case first =>
    intro before e between r after popped? fault hs hn he hb hr ht
    rw [ho.first_fault hs hn he hb hr, pending_drain_ofSource.2 ht]
  case token_place => exact fun r hr token ha => position_of_token hr ha
  case fault_place =>
    intro r hr he fault ht
    rw [ho.position_of_end hr he, hplace, pending_drain_ofSource.2 ht]
    rfl
  case end_place =>
    intro r hr he tokens ht
    have hnone : (ofSource source).drain.2.pending? = none := congrArg Prod.snd (tokenize_eq_ok_iff.1 ht)
    rw [hnone] at hplace
    rw [ho.position_of_end hr he]
    exact Int.ofNat.inj hplace

end Abacus.Tokenizer
