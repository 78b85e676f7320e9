/-
# Bytewise.Proofs.Ending — how every combinator ends.

Most statements about parsers do not look at the trace. For them a combinator is described by one equation:
its ending as a function of the endings of the parsers inside it. `Ending.resume` is the only way in which one
ending depends on another, so a property of endings that `resume` keeps is kept by every combinator.

The repetitions are brought to the same shape first. `Parser.repeated` walks the same chain as `many`, `many1` and
`span`, and `repeated_succ` unrolls it by one step: the chain, with its accumulators and its budget, is not
opened again after this module.
-/
import Bytewise.Parser.Choice
import Bytewise.Parser.Lemmas
import Bytewise.Parser.Lookahead
import Bytewise.Parser.Repeat
import Bytewise.Parser.Sequence
import Bytewise.Parser.Traced

namespace Bytewise

/-! ## What follows an ending -/

namespace Ending

variable {α β : Type}

/-- **`resume e hit miss`** — what follows an ending: `hit` after a value, `miss` after a failure. A fault stays a
fault, and what does not end does not end. -/
def resume (e : Ending α) (hit : α → Ending β) (miss : Reason → Ending β) : Ending β :=
  match e with
  | .done a => hit a
  | .failed reason => miss reason
  | .raised fault => .raised fault
  | .unfinished => .unfinished

section

variable (hit : α → Ending β) (miss : Reason → Ending β)

@[simp] theorem resume_done (a : α) : (Ending.done a).resume hit miss = hit a := rfl

@[simp] theorem resume_failed (reason : Reason) : (Ending.failed reason).resume hit miss = miss reason := rfl

@[simp] theorem resume_raised (fault : Fault) : (Ending.raised fault).resume hit miss = .raised fault := rfl

@[simp] theorem resume_unfinished : Ending.unfinished.resume hit miss = .unfinished := rfl

end

/-- Resuming twice is resuming with what was resumed. -/
theorem resume_resume {γ : Type} (e : Ending α) (hit : α → Ending β) (miss : Reason → Ending β)
    (hit' : β → Ending γ) (miss' : Reason → Ending γ) :
    (e.resume hit miss).resume hit' miss' =
      e.resume (fun a => (hit a).resume hit' miss') fun reason => (miss reason).resume hit' miss' := by
  cases e <;> rfl

/-- Whether an attempt matched can be decided. -/
instance decidableExistsDone (e : Ending α) : Decidable (∃ a, e = .done a) :=
  match e with
  | .done a => isTrue ⟨a, rfl⟩
  | .failed _ | .raised _ | .unfinished => isFalse nofun

/-- **`e.Holds Q`** — if it is a match, `Q` holds of its value. -/
def Holds (Q : α → Prop) (e : Ending α) : Prop :=
  ∀ a, e = .done a → Q a

variable {e : Ending α} {hit : α → Ending β} {miss : Reason → Ending β} {Q Q' : α → Prop} {R : β → Prop}

theorem Holds.done {a : α} (h : Q a) : (Ending.done a).Holds Q := by
  intro b hb
  cases hb
  exact h

theorem Holds.failed (reason : Reason) : (Ending.failed reason).Holds Q := by
  intro b hb
  cases hb

theorem Holds.raised (fault : Fault) : (Ending.raised fault).Holds Q := by
  intro b hb
  cases hb

theorem Holds.unfinished : Ending.unfinished.Holds Q := by
  intro b hb
  cases hb

theorem Holds.mono (he : e.Holds Q) (h : ∀ a, Q a → Q' a) : e.Holds Q' :=
  fun a ha => h a (he a ha)

/-- What holds of a match may be used for what follows it. -/
theorem Holds.resume (he : e.Holds Q) (hhit : ∀ a, Q a → (hit a).Holds R)
    (hmiss : ∀ reason, (miss reason).Holds R) : (e.resume hit miss).Holds R := by
  cases e with
  | done a => exact hhit a (he a rfl)
  | failed reason => exact hmiss reason
  | raised fault => exact .raised fault
  | unfinished => exact .unfinished

/-- **`e.Yields Q F`** — if it is a match, `Q` holds of its value, and if it is a failure, `F` holds of its reason. -/
def Yields (Q : α → Prop) (F : Reason → Prop) : Ending α → Prop
  | .done a => Q a
  | .failed reason => F reason
  | .raised _ => True
  | .unfinished => True

variable {F F' : Reason → Prop}

/-- What is known of an ending may be used for what follows it. -/
theorem Yields.resume (he : e.Yields Q F) (hhit : ∀ a, Q a → (hit a).Yields R F')
    (hmiss : ∀ reason, F reason → (miss reason).Yields R F') : (e.resume hit miss).Yields R F' := by
  cases e with
  | done a => exact hhit a he
  | failed reason => exact hmiss reason he
  | raised fault => trivial
  | unfinished => trivial

/-- What is known of an ending may be weakened. -/
theorem Yields.mono (he : e.Yields Q F) (hQ : ∀ a, Q a → Q' a) (hF : ∀ reason, F reason → F' reason) :
    e.Yields Q' F' := by
  cases e with
  | done a => exact hQ a he
  | failed reason => exact hF reason he
  | raised fault => trivial
  | unfinished => trivial

/-- Two things known of the matches are known together. -/
theorem Yields.and_holds (he : e.Yields Q F) (he' : e.Holds Q') : e.Yields (fun a => Q a ∧ Q' a) F := by
  cases e with
  | done a => exact ⟨he, he' a rfl⟩
  | failed reason => exact he
  | raised fault => trivial
  | unfinished => trivial

end Ending

namespace Attempt

variable {α β : Type}

/-- How a sequence ends. -/
theorem ending_bind (x : Attempt α) (f : α → Attempt β) :
    (x.bind f).ending = x.ending.resume (fun a => (f a).ending) .failed := by
  rcases x with ⟨_ | _ | _ | _, trace⟩ <;> rfl

/-- How a sequence ends that goes on after a failure. -/
theorem ending_settle_bind (x : Attempt α) (f : Except Reason α → Attempt β) :
    (x.settle.bind f).ending =
      x.ending.resume (fun a => (f (.ok a)).ending) fun reason => (f (.error reason)).ending := by
  rcases x with ⟨_ | _ | _ | _, trace⟩ <;> rfl

@[simp] theorem ending_done (a : α) : (done a).ending = .done a := rfl

@[simp] theorem ending_fail (reason : Reason) : (fail reason : Attempt α).ending = .failed reason := rfl

@[simp] theorem ending_raise (fault : Fault) : (raise fault : Attempt α).ending = .raised fault := rfl

@[simp] theorem ending_unfinished : (unfinished : Attempt α).ending = .unfinished := rfl

end Attempt

namespace Parser

variable {α β γ : Type}

/-! ## One equation a combinator -/

theorem ending_map (f : α → Except Fault β) (p : Parser α) (c : Cursor) :
    (p.map f c).ending =
      (p c).ending.resume
        (fun m =>
          match f m.value with
          | .ok value => .done ⟨value, m.rest⟩
          | .error fault => .raised fault)
        .failed := by
  simp only [map, Attempt.bind_eq, Attempt.pure_eq, Attempt.ending_bind]
  congr 1
  funext m
  cases f m.value <;> rfl

theorem ending_as (f : α → β) (p : Parser α) (c : Cursor) :
    (p.as f c).ending = (p c).ending.resume (fun m => .done ⟨f m.value, m.rest⟩) .failed := by
  rw [as, ending_map]

theorem ending_nonempty (p : Parser (List UInt8)) (c : Cursor) :
    (p.nonempty c).ending =
      (p c).ending.resume (fun m => if m.value.isEmpty then .failed .nothingConsumed else .done m) .failed := by
  simp only [nonempty, Attempt.bind_eq, Attempt.pure_eq, Attempt.ending_bind]
  congr 1
  funext m
  split <;> rfl

theorem ending_andThen (p : Parser α) (q : Parser β) (c : Cursor) :
    (andThen p q c).ending = (p c).ending.resume (fun first => (q first.rest).ending) .failed := by
  simp only [andThen, Attempt.bind_eq, Attempt.ending_bind]

theorem ending_before (p : Parser α) (q : Parser β) (c : Cursor) :
    (before p q c).ending =
      (p c).ending.resume
        (fun first =>
          (q first.rest).ending.resume (fun second => .done ⟨first.value, second.rest⟩) .failed)
        .failed := by
  simp only [before, Attempt.bind_eq, Attempt.pure_eq, Attempt.ending_bind, Attempt.ending_done]

theorem ending_separated (p : Parser α) (s : Parser β) (q : Parser γ) (c : Cursor) :
    (separated p s q c).ending =
      (p c).ending.resume
        (fun first =>
          (s first.rest).ending.resume
            (fun separator =>
              (q separator.rest).ending.resume
                (fun second => .done ⟨(first.value, second.value), second.rest⟩) .failed)
            .failed)
        .failed := by
  simp only [separated, Attempt.bind_eq, Attempt.pure_eq, Attempt.ending_bind, Attempt.ending_done]

theorem ending_optional (p : Parser α) (c : Cursor) :
    (optional p c).ending =
      (p c).ending.resume (fun m => .done ⟨some m.value, m.rest⟩) fun _ => .done ⟨none, c⟩ := by
  simp only [optional, Attempt.bind_eq, Attempt.pure_eq, Attempt.ending_settle_bind, Attempt.ending_done]

theorem ending_lookahead (p : Parser α) (c : Cursor) :
    (lookahead p c).ending = (p c).ending.resume (fun m => .done ⟨m.value, c⟩) .failed := by
  simp only [lookahead, Attempt.bind_eq, Attempt.pure_eq, Attempt.ending_bind, Attempt.ending_done]

theorem ending_notFollowedBy (p : Parser α) (c : Cursor) :
    (notFollowedBy p c).ending =
      (p c).ending.resume (fun _ => .failed .parserSucceeded) fun _ => .done ⟨(), c⟩ := by
  simp only [notFollowedBy, Attempt.bind_eq, Attempt.pure_eq, Attempt.ending_settle_bind,
    Attempt.ending_done, Attempt.ending_fail]

theorem ending_endOfInput (c : Cursor) :
    (endOfInput c).ending = if c.atEnd then .done ⟨(), c⟩ else .failed .notEmpty := by
  unfold endOfInput
  split <;> rfl

theorem ending_moreInput (c : Cursor) :
    (moreInput c).ending = if c.atEnd then .failed .parserSucceeded else .done ⟨(), c⟩ := by
  rw [moreInput, ending_notFollowedBy, ending_endOfInput]
  split <;> rfl

theorem ending_whole (p : Parser α) (c : Cursor) :
    (whole p c).ending =
      (p c).ending.resume (fun m => if m.rest.atEnd then .done m else .failed .notEmpty) .failed := by
  simp only [whole, Attempt.bind_eq, Attempt.pure_eq, Attempt.ending_bind, Attempt.ending_done,
    ending_endOfInput]
  congr 1
  funext m
  split <;> rfl

@[simp] theorem ending_firstOf_nil (c : Cursor) :
    (firstOf ([] : List (Parser α)) c).ending = .failed .noParserSucceeded := rfl

theorem ending_firstOf_cons (p : Parser α) (ps : List (Parser α)) (c : Cursor) :
    (firstOf (p :: ps) c).ending = (p c).ending.resume .done fun _ => (firstOf ps c).ending := by
  simp only [firstOf, Attempt.bind_eq, Attempt.pure_eq, Attempt.ending_settle_bind, Attempt.ending_done]

/-- A label changes no ending. -/
theorem ending_traced (on : Bool) (label : String) (p : Parser α) (c : Cursor) :
    (traced on label p c).ending = (p c).ending := by
  unfold traced
  split
  · rcases h : p c with ⟨_ | _ | _ | _, trace⟩ <;> rfl
  · rfl

/-! ## Repetitions, unrolled -/

/-- **`repeated goOn repetition budget p`** — the values of `p` for as long as `goOn` holds and until `p` fails,
possibly none. A match that leaves the window as long as it was is a fault in the name of `repetition`. -/
def repeated (goOn : Cursor → Bool) (repetition : String) (budget : Nat) (p : Parser α) : Parser (List α) :=
  fun c =>
    let k := p.chain goOn budget c
    k.finish repetition (.done ⟨k.values, k.last⟩)

@[simp] theorem repeated_zero (goOn : Cursor → Bool) (repetition : String) (p : Parser α) (c : Cursor) :
    repeated goOn repetition 0 p c = .unfinished := rfl

/-- **One step of a repetition**, the trace included. -/
theorem repeated_succ (goOn : Cursor → Bool) (repetition : String) (budget : Nat) (p : Parser α) (c : Cursor) :
    repeated goOn repetition (budget + 1) p c =
      if goOn c then
        (p c).settle.bind fun
          | .ok m =>
            if m.rest.length = c.length then .raise (.noProgress repetition)
            else
              (repeated goOn repetition budget p m.rest).bind fun n =>
                .done ⟨m.value :: n.value, n.rest⟩
          | .error _ => .done ⟨[], c⟩
      else .done ⟨[], c⟩ := by
  unfold repeated
  rw [chain_succ]
  by_cases hgo : goOn c
  · rcases hp : p c with ⟨m | reason | fault | _, events⟩
    · by_cases hlen : m.rest.length = c.length
      · simp [hgo, hlen, Chain.finish, Attempt.settle, Attempt.bind, Attempt.raise]
      · -- the rest of the walk ends as it does on its own, with one more value in front
        simp only [hgo, hlen, if_true, if_false, Attempt.settle, Attempt.bind, Chain.cons]
        cases hh : (p.chain goOn budget m.rest).halt <;> simp [Chain.finish, hh, Attempt.done]
    all_goals simp [hgo, Chain.finish, Attempt.settle, Attempt.bind, Attempt.done]
  · simp [hgo, Chain.finish, Attempt.done]

/-- How one step of a repetition ends. -/
theorem ending_repeated_succ (goOn : Cursor → Bool) (repetition : String) (budget : Nat) (p : Parser α)
    (c : Cursor) :
    (repeated goOn repetition (budget + 1) p c).ending =
      if goOn c then
        (p c).ending.resume
          (fun m =>
            if m.rest.length = c.length then .raised (.noProgress repetition)
            else
              (repeated goOn repetition budget p m.rest).ending.resume
                (fun n => .done ⟨m.value :: n.value, n.rest⟩) .failed)
          fun _ => .done ⟨[], c⟩
      else .done ⟨[], c⟩ := by
  rw [repeated_succ]
  split
  · rw [Attempt.ending_settle_bind]
    congr 1
    funext m
    dsimp only
    split
    · rfl
    · exact Attempt.ending_bind _ _
  · rfl

/-- A chain without matches has not moved. -/
theorem last_chain_of_values_nil (p : Parser α) (goOn : Cursor → Bool) (budget : Nat) (c : Cursor)
    (h : (p.chain goOn budget c).values = []) : (p.chain goOn budget c).last = c := by
  cases budget with
  | zero => rfl
  | succ budget =>
    rw [chain_succ] at h ⊢
    by_cases hgo : goOn c
    · rcases hp : p c with ⟨m | reason | fault | _, events⟩
      · by_cases hlen : m.rest.length = c.length
        · simp [hgo, hlen]
        · simp [hgo, hp, hlen, Chain.cons] at h
      all_goals simp [hgo]
    · simp [hgo]

/-- Going on silently after a chain that ended well only changes its ending. -/
theorem finish_done_bind (k : Chain α) (repetition : String) (b : β) (f : β → Attempt γ)
    (h : (f b).trace = []) :
    (k.finish repetition (.done b)).bind f = k.finish repetition (f b).ending := by
  unfold Chain.finish
  cases k.halt <;> simp [Attempt.bind, h]

/-- `many` repeats without a condition. -/
theorem many_eq (budget : Nat) (p : Parser α) (c : Cursor) :
    many budget p c = repeated (fun _ => true) "one_or_more" budget p c := by
  have hlast := last_chain_of_values_nil p (fun _ => true) budget c
  unfold many many1 repeated
  cases hh : (p.chain (fun _ => true) budget c).halt with
  | full | failed =>
    cases hv : (p.chain (fun _ => true) budget c).values with
    | nil => simp [Chain.finish, hh, hv, hlast hv, Attempt.settle, Attempt.bind, Attempt.done]
    | cons v vs => simp [Chain.finish, hh, hv, Attempt.settle, Attempt.bind, Attempt.done]
  | stuck | raised | unfinished => simp [Chain.finish, hh, Attempt.settle, Attempt.bind]

/-- `many1` repeats without a condition, and fails where there is no value. -/
theorem many1_eq (budget : Nat) (p : Parser α) (c : Cursor) :
    many1 budget p c =
      (repeated (fun _ => true) "one_or_more" budget p c).bind fun m =>
        if m.value.isEmpty then .fail .noRepetition else .done m := by
  unfold many1 repeated
  rw [finish_done_bind]
  · dsimp only
    split <;> rfl
  · split <;> rfl

/-- `span` repeats while there is input, and gives the bytes between the two ends of the chain. -/
theorem span_eq (budget : Nat) (p : Parser α) (c : Cursor) :
    span budget p c =
      if c.atEnd then .fail .emptyInput
      else
        (repeated (fun here => !here.atEnd) "take_while" budget p c).bind fun m =>
          .done (if m.rest.pos = c.pos then ⟨[], c⟩ else ⟨c.sliceTo m.rest.pos, m.rest⟩) := by
  unfold span repeated
  split
  · rfl
  · rw [finish_done_bind]
    · rfl
    · rfl

theorem ending_many1 (budget : Nat) (p : Parser α) (c : Cursor) :
    (many1 budget p c).ending =
      (many budget p c).ending.resume
        (fun m => if m.value.isEmpty then .failed .noRepetition else .done m) .failed := by
  rw [many1_eq, many_eq, Attempt.ending_bind]
  congr 1
  funext m
  split <;> rfl

theorem ending_span (budget : Nat) (p : Parser α) (c : Cursor) :
    (span budget p c).ending =
      if c.atEnd then .failed .emptyInput
      else
        (repeated (fun here => !here.atEnd) "take_while" budget p c).ending.resume
          (fun m => .done (if m.rest.pos = c.pos then ⟨[], c⟩ else ⟨c.sliceTo m.rest.pos, m.rest⟩))
          .failed := by
  rw [span_eq]
  split
  · rfl
  · exact Attempt.ending_bind _ _

end Parser

end Bytewise
