/-
# Bytewise.Proofs.Greedy — a repetition is the longest walk.

A parser *walks* by matches one after the other, each of which starts where the one before it left off and leaves a
shorter window. At one cursor a parser has one ending, so two walks from there are the same as far as both go; and no
walk has more matches than the window has bytes. So there is a longest walk, and it ends where no match of the parser
leaves a shorter window.

Every repetition goes this walk to its end (`Walk.ending_repeated`). What it answers depends on how the parser ends
there and on nothing else: `many_longest_walk` says so for the repetitions that collect values. `span` goes the same walk,
but does not try the parser at the end of the window; `span_agrees_many` says where that shows.
-/
import Bytewise.Proofs.Suffix
import Mathlib.Data.Nat.Init
import Mathlib.Logic.ExistsUnique

namespace Bytewise.Parser

variable {α : Type}

/-! ## Walks -/

/-- **`p.Walk c ms d`** — the matches `ms` lead from `c` to `d`, one after the other, and each of them leaves a shorter
window. -/
inductive Walk (p : Parser α) : Cursor → List (Match α) → Cursor → Prop
  | nil (c : Cursor) : Walk p c [] c
  | cons {c d : Cursor} {m : Match α} {ms : List (Match α)} :
      (p c).ending = .done m → m.rest.length < c.length → Walk p m.rest ms d → Walk p c (m :: ms) d

/-- **`p.IsLongestWalk c ms d`** — no walk from `c` has more matches than this one. -/
def IsLongestWalk (p : Parser α) (c : Cursor) (ms : List (Match α)) (d : Cursor) : Prop :=
  p.Walk c ms d ∧ ∀ ms' d', p.Walk c ms' d' → ms'.length ≤ ms.length

/-- **`p.StopsAt d`** — no match of `p` at `d` leaves a shorter window. -/
def StopsAt (p : Parser α) (d : Cursor) : Prop :=
  ∀ m, (p d).ending = .done m → ¬ m.rest.length < d.length

variable {p : Parser α} {c d d' : Cursor} {ms ms' : List (Match α)}

theorem stopsAt_of_failed {reason : Reason} (h : (p d).ending = .failed reason) : p.StopsAt d := by
  intro m hm
  rw [h] at hm
  cases hm

theorem stopsAt_of_raised {fault : Fault} (h : (p d).ending = .raised fault) : p.StopsAt d := by
  intro m hm
  rw [h] at hm
  cases hm

/-- No window is shorter than an empty one. -/
theorem stopsAt_of_empty (p : Parser α) (h : d.window = []) : p.StopsAt d := by
  intro m _
  rw [← Cursor.length_window d, h]
  exact Nat.not_lt_zero _

/-- A parser that only advances matches where it stops without consuming anything. -/
theorem StopsAt.length_eq (hd : p.StopsAt d) (hp : p.OnlyAdvances) {m : Match α} (hm : (p d).ending = .done m) :
    m.rest.length = d.length := by
  have hle := (hp d m hm).length_le
  have hnot := hd m hm
  omega

namespace Walk

/-- Every match of a walk consumes a byte. -/
theorem length_add_le (h : p.Walk c ms d) : ms.length + d.length ≤ c.length := by
  induction h with
  | nil c => simp
  | cons _ hless _ ih =>
    rw [List.length_cons]
    omega

theorem isRestOf (hp : p.OnlyAdvances) (h : p.Walk c ms d) : d.IsRestOf c := by
  induction h with
  | nil c => exact .refl c
  | cons hm _ _ ih => exact ih.trans (hp _ _ hm)

/-- A walk may be continued by one match. -/
theorem concat (h : p.Walk c ms d) {m : Match α} (hm : (p d).ending = .done m) (hless : m.rest.length < d.length) :
    p.Walk c (ms ++ [m]) m.rest := by
  induction h with
  | nil c => exact .cons hm hless (.nil m.rest)
  | cons hhead hshorter _ ih => exact .cons hhead hshorter (ih hm hless)

/-- Walks of the same length from the same cursor are the same. -/
theorem eq_of_length_eq (h : p.Walk c ms d) (h' : p.Walk c ms' d') (hlen : ms.length = ms'.length) :
    ms = ms' ∧ d = d' := by
  induction h generalizing ms' with
  | nil c =>
    cases h' with
    | nil => exact ⟨rfl, rfl⟩
    | cons => cases hlen
  | cons hm _ _ ih =>
    cases h' with
    | nil => cases hlen
    | cons hm' _ htail =>
      -- both walks begin with the one match that `p` has here
      obtain rfl := Ending.done.inj (hm.symm.trans hm')
      obtain ⟨rfl, rfl⟩ := ih htail (Nat.succ.inj hlen)
      exact ⟨rfl, rfl⟩

/-- A walk to where the parser stops is as long as any. -/
theorem length_le_of_stopsAt (h : p.Walk c ms d) (hd : p.StopsAt d) (h' : p.Walk c ms' d') :
    ms'.length ≤ ms.length := by
  induction h generalizing ms' with
  | nil c =>
    cases h' with
    | nil => exact Nat.le_refl _
    | cons hm' hless' _ => exact absurd hless' (hd _ hm')
  | cons hm _ _ ih =>
    cases h' with
    | nil => exact Nat.zero_le _
    | cons hm' _ htail =>
      obtain rfl := Ending.done.inj (hm.symm.trans hm')
      exact Nat.succ_le_succ (ih hd htail)

end Walk

/-- **The longest walk is the one that ends where the parser stops.** -/
theorem isLongestWalk_iff : p.IsLongestWalk c ms d ↔ p.Walk c ms d ∧ p.StopsAt d := by
  constructor
  · rintro ⟨hwalk, hlongest⟩
    refine ⟨hwalk, fun m hm hless => ?_⟩
    have hlonger := hlongest _ _ (hwalk.concat hm hless)
    rw [List.length_append, List.length_singleton] at hlonger
    omega
  · rintro ⟨hwalk, hd⟩
    exact ⟨hwalk, fun ms' d' h' => hwalk.length_le_of_stopsAt hd h'⟩

/-- There is a longest walk from every cursor, for each match leaves less to walk. -/
theorem exists_isLongestWalk (p : Parser α) (c : Cursor) : ∃ ms d, p.IsLongestWalk c ms d := by
  induction hlen : c.length using Nat.strong_induction_on generalizing c with
  | _ len ih =>
    subst hlen
    by_cases hmore : ∃ m, (p c).ending = .done m ∧ m.rest.length < c.length
    · obtain ⟨m, hm, hless⟩ := hmore
      obtain ⟨ms, d, hlongest⟩ := ih m.rest.length hless m.rest rfl
      obtain ⟨hwalk, hd⟩ := isLongestWalk_iff.1 hlongest
      exact ⟨m :: ms, d, isLongestWalk_iff.2 ⟨.cons hm hless hwalk, hd⟩⟩
    · exact ⟨[], c, isLongestWalk_iff.2 ⟨.nil c, fun m hm hless => hmore ⟨m, hm, hless⟩⟩⟩

theorem existsUnique_isLongestWalk (p : Parser α) (c : Cursor) :
    ∃! walk : List (Match α) × Cursor, p.IsLongestWalk c walk.1 walk.2 := by
  obtain ⟨ms, d, hlongest⟩ := exists_isLongestWalk p c
  refine ⟨(ms, d), hlongest, ?_⟩
  rintro ⟨ms', d'⟩ hlongest'
  have hle := hlongest.2 _ _ hlongest'.1
  have hle' := hlongest'.2 _ _ hlongest.1
  obtain ⟨rfl, rfl⟩ := hlongest'.1.eq_of_length_eq hlongest.1 (by omega)
  rfl

/-! ## Repetitions along the longest walk -/

section

variable {goOn : Cursor → Bool} {repetition : String} {budget : Nat}

/-- **A repetition goes the longest walk to its end** and is decided by how the parser ends there. Where there is input
left it has to go on; at the end of the window it may look at the parser or not. -/
theorem Walk.ending_repeated (hp : p.OnlyAdvances) (hgoOn : ∀ here : Cursor, 0 < here.length → goOn here = true)
    (h : p.Walk c ms d) (hd : p.StopsAt d) (hbudget : ms.length < budget) :
    (repeated goOn repetition budget p c).ending =
      if goOn d then
        (p d).ending.resume (fun _ => .raised (.noProgress repetition)) fun _ => .done ⟨ms.map Match.value, d⟩
      else .done ⟨ms.map Match.value, d⟩ := by
  induction h generalizing budget with
  | nil c =>
    obtain ⟨budget, rfl⟩ : ∃ less, budget = less + 1 := ⟨budget - 1, by omega⟩
    rw [ending_repeated_succ]
    split
    · cases he : (p c).ending with
      | done m => rw [Ending.resume_done, Ending.resume_done, if_pos (hd.length_eq hp he)]
      | failed | raised | unfinished => rfl
    · rfl
  | @cons c d m ms hm hless _ ih =>
    rw [List.length_cons] at hbudget
    obtain ⟨budget, rfl⟩ : ∃ less, budget = less + 1 := ⟨budget - 1, by omega⟩
    have hmore : goOn c = true := hgoOn c (Nat.zero_lt_of_lt hless)
    rw [ending_repeated_succ, if_pos hmore, hm, Ending.resume_done, if_neg (Nat.ne_of_lt hless), ih hd (by omega)]
    -- the walk behind the first match has one value less
    split
    · rw [Ending.resume_resume]
      rfl
    · rfl

/-- **A repetition that matches has walked**, and stopped because it was not to go on or because the parser failed. It
is so for every budget: a budget that is too small gives no match. -/
theorem walk_of_repeated (hp : p.OnlyAdvances) (goOn : Cursor → Bool) (repetition : String) (budget : Nat)
    (c : Cursor) :
    (repeated goOn repetition budget p c).ending.Holds fun m =>
      ∃ ms, p.Walk c ms m.rest ∧ m.value = ms.map Match.value ∧
        (goOn m.rest = true → ∃ reason, (p m.rest).ending = .failed reason) := by
  induction budget generalizing c with
  | zero => exact .unfinished
  | succ budget ih =>
    rw [ending_repeated_succ]
    split
    · cases he : (p c).ending with
      | done m =>
        have hle := (hp c m he).length_le
        rw [Ending.resume_done]
        split
        · exact .raised _
        · refine (ih m.rest).resume (fun n hn => ?_) .failed
          obtain ⟨ms, hwalk, hvalue, hstop⟩ := hn
          refine .done ⟨m :: ms, .cons he (by omega) hwalk, ?_, hstop⟩
          rw [hvalue, List.map_cons]
      | failed reason => exact .done ⟨[], .nil c, rfl, fun _ => ⟨reason, he⟩⟩
      | raised fault => exact .raised fault
      | unfinished => exact .unfinished
    · rename_i hnot
      exact .done ⟨[], .nil c, rfl, fun hgo => absurd hgo hnot⟩

end

/-! ## The repetitions that collect values -/

variable {budget : Nat}

/-- A collecting repetition, at the end of the longest walk. -/
theorem IsLongestWalk.ending_many (hp : p.OnlyAdvances) (h : p.IsLongestWalk c ms d) (hbudget : c.length < budget) :
    (many budget p c).ending =
      (p d).ending.resume (fun _ => .raised (.noProgress "one_or_more")) fun _ => .done ⟨ms.map Match.value, d⟩ := by
  obtain ⟨hwalk, hd⟩ := isLongestWalk_iff.1 h
  have hlen := hwalk.length_add_le
  rw [many_eq, hwalk.ending_repeated hp (fun _ _ => rfl) hd (by omega), if_pos rfl]

/-- Where a collecting repetition leaves off the parser fails, and no match that led there was empty. -/
theorem failed_of_many (hp : p.OnlyAdvances) (budget : Nat) (c : Cursor) :
    (many budget p c).ending.Holds fun m =>
      m.value.length ≤ m.rest.pos - c.pos ∧ ∃ reason, (p m.rest).ending = .failed reason := by
  rw [many_eq]
  refine (walk_of_repeated hp (fun _ => true) "one_or_more" budget c).mono fun m hm => ?_
  obtain ⟨ms, hwalk, hvalue, hstop⟩ := hm
  have hlen := hwalk.length_add_le
  have hconsumed := (hwalk.isRestOf hp).pos_sub_add_length
  refine ⟨?_, hstop rfl⟩
  rw [hvalue, List.length_map]
  omega

/-- A repetition that needs a match gives what the plain one gives, if that is a match. -/
theorem many_of_many1 {m : Match (List α)} (h : (many1 budget p c).ending = .done m) :
    (many budget p c).ending = .done m := by
  rw [ending_many1] at h
  cases he : (many budget p c).ending with
  | done n =>
    rw [he, Ending.resume_done] at h
    split at h
    · cases h
    · exact h
  | failed | raised | unfinished =>
    rw [he] at h
    cases h

/-- **Repetition is greedy and maximal.** From every cursor there is one longest walk. Both repetitions give its values
and its end if the parser fails there; if the parser matches there, it consumes nothing, and that is the repetitions'
fault; if it raises, its fault is theirs. They differ where the walk has no match. So no repetition has more values than
bytes consumed, and the parser cannot match behind a repetition of itself. -/
theorem many_longest_walk {p : Parser α} (hp : p.OnlyAdvances) (c : Cursor) :
    (∃! walk : List (Match α) × Cursor, p.IsLongestWalk c walk.1 walk.2) ∧
      (∀ ms d, p.IsLongestWalk c ms d →
        ms.length ≤ c.length ∧ ∀ budget, c.length < budget →
          (∀ reason, (p d).ending = .failed reason →
            (many1 budget p c).ending =
                (if ms.isEmpty then .failed .noRepetition else .done ⟨ms.map Match.value, d⟩) ∧
              (many budget p c).ending = .done ⟨ms.map Match.value, d⟩) ∧
          (∀ m, (p d).ending = .done m →
            m.rest.length = d.length ∧
              (many1 budget p c).ending = .raised (.noProgress "one_or_more") ∧
              (many budget p c).ending = .raised (.noProgress "one_or_more")) ∧
          (∀ fault, (p d).ending = .raised fault →
            (many1 budget p c).ending = .raised fault ∧ (many budget p c).ending = .raised fault)) ∧
      (∀ budget m, (many1 budget p c).ending = .done m ∨ (many budget p c).ending = .done m →
        m.value.length ≤ m.rest.pos - c.pos ∧ ∃ reason, (p m.rest).ending = .failed reason) ∧
      ∀ budget m, (andThen (many budget p) p c).ending ≠ .done m := by
  refine ⟨existsUnique_isLongestWalk p c, fun ms d hlongest => ?_, fun budget m hm => ?_, fun budget m hm => ?_⟩
  · obtain ⟨hwalk, hd⟩ := isLongestWalk_iff.1 hlongest
    have hlen := hwalk.length_add_le
    refine ⟨by omega, fun budget hbudget => ?_⟩
    have hmany := hlongest.ending_many hp hbudget
    refine ⟨fun reason hfailed => ?_, fun m hdone => ?_, fun fault hraised => ?_⟩
    · rw [hfailed, Ending.resume_failed] at hmany
      rw [ending_many1, hmany, Ending.resume_done, List.isEmpty_map]
      exact ⟨rfl, rfl⟩
    · rw [hdone, Ending.resume_done] at hmany
      rw [ending_many1, hmany]
      exact ⟨hd.length_eq hp hdone, rfl, rfl⟩
    · rw [hraised, Ending.resume_raised] at hmany
      rw [ending_many1, hmany]
      exact ⟨rfl, rfl⟩
  · exact failed_of_many hp budget c m (hm.elim many_of_many1 id)
  · rw [ending_andThen] at hm
    cases he : (many budget p c).ending with
    | done n =>
      -- behind the repetition `p` fails
      obtain ⟨-, reason, hfailed⟩ := failed_of_many hp budget c n he
      rw [he, Ending.resume_done, hfailed] at hm
      cases hm
    | failed | raised | unfinished =>
      rw [he] at hm
      cases hm

/-- Letters with a comma behind each. At the third letter there is no comma any more, so the walk ends in front of it. -/
theorem many_longest_walk_letters :
    let c : Cursor := ⟨⟨#[0x78, 0x61, 0x2c, 0x61, 0x2c, 0x61, 0x78]⟩, 1, 6, by decide, by decide⟩
    let item : Parser UInt8 := before (byte 0x61) (byte 0x2c)
    let ms : List (Match UInt8) := [⟨0x61, c.skip 2⟩, ⟨0x61, c.skip 4⟩]
    item.OnlyAdvances ∧ item.IsLongestWalk c ms (c.skip 4) ∧ c.length < 6 ∧
      (item (c.skip 4)).ending = .failed .emptyInput ∧
      (many1 6 item c).ending = .done ⟨[0x61, 0x61], c.skip 4⟩ ∧
      (many 6 item c).ending = .done ⟨[0x61, 0x61], c.skip 4⟩ := by
  intro c item ms
  have hp : item.OnlyAdvances := (onlyAdvances_satisfy _).before (onlyAdvances_satisfy _)
  have hfailed : (item (c.skip 4)).ending = .failed .emptyInput := by decide +kernel
  have hwalk : item.Walk c ms (c.skip 4) :=
    .cons (by decide +kernel) (by decide) (.cons (by decide +kernel) (by decide) (.nil _))
  have hlongest : item.IsLongestWalk c ms (c.skip 4) := isLongestWalk_iff.2 ⟨hwalk, stopsAt_of_failed hfailed⟩
  have hlength : c.length < 6 := by decide
  obtain ⟨-, hwalks, -⟩ := many_longest_walk hp c
  obtain ⟨-, hbudget⟩ := hwalks ms _ hlongest
  exact ⟨hp, hlongest, hlength, hfailed, (hbudget 6 hlength).1 _ hfailed⟩

/-! ## The repetition that takes bytes -/

/-- A repetition that takes bytes goes the same walk, and at the end of the window it does not ask the parser. -/
theorem IsLongestWalk.ending_span (hp : p.OnlyAdvances) (h : p.IsLongestWalk c ms d) (hc : c.window ≠ [])
    (hbudget : c.length < budget) :
    (span budget p c).ending =
      if d.atEnd then .done ⟨c.window.take (d.pos - c.pos), d⟩
      else
        (p d).ending.resume (fun _ => .raised (.noProgress "take_while")) fun _ =>
          .done ⟨c.window.take (d.pos - c.pos), d⟩ := by
  obtain ⟨hwalk, hd⟩ := isLongestWalk_iff.1 h
  have hlen := hwalk.length_add_le
  have hslice := (hwalk.isRestOf hp).slice_eq
  have hgoOn : ∀ here : Cursor, 0 < here.length → (!here.atEnd) = true := by
    intro here hpos
    rw [Cursor.atEnd_eq, decide_eq_false (by omega)]
    rfl
  have hrepeated : (repeated (fun here => !here.atEnd) "take_while" budget p c).ending = _ :=
    hwalk.ending_repeated hp hgoOn hd (by omega)
  rw [Parser.ending_span, if_neg (fun hend => hc (c.atEnd_iff.1 hend)), hrepeated]
  cases hend : d.atEnd with
  | true =>
    simp only [Bool.not_true, Bool.false_eq_true, if_false, if_true]
    rw [Ending.resume_done, hslice]
  | false =>
    simp only [Bool.not_false, Bool.false_eq_true, if_false, if_true]
    rw [Ending.resume_resume]
    simp only [Ending.resume_raised, Ending.resume_done, hslice]

section

variable (hp : p.OnlyAdvances) (hc : c.window ≠ []) (hbudget : c.length < budget)

include hp hc hbudget

/-- Where a walk ends with the window or with a failure, its bytes are taken. -/
theorem Walk.ending_span_of_end (h : p.Walk c ms d) (hend : d.window = [] ∨ ∃ reason, (p d).ending = .failed reason) :
    (span budget p c).ending = .done ⟨c.window.take (d.pos - c.pos), d⟩ := by
  rcases hend with hempty | ⟨reason, hfailed⟩
  · have hlongest := isLongestWalk_iff.2 ⟨h, stopsAt_of_empty p hempty⟩
    rw [hlongest.ending_span hp hc hbudget, if_pos (d.atEnd_iff.2 hempty)]
  · have hlongest := isLongestWalk_iff.2 ⟨h, stopsAt_of_failed hfailed⟩
    rw [hlongest.ending_span hp hc hbudget, hfailed, Ending.resume_failed, ite_self]

/-- Where a walk ends inside the window with a fault, so does the repetition. -/
theorem Walk.ending_span_of_raised (h : p.Walk c ms d) (hd : d.window ≠ []) {fault : Fault}
    (hraised : (p d).ending = .raised fault) : (span budget p c).ending = .raised fault := by
  have hlongest := isLongestWalk_iff.2 ⟨h, stopsAt_of_raised hraised⟩
  rw [hlongest.ending_span hp hc hbudget, if_neg (fun hend => hd (d.atEnd_iff.1 hend)), hraised, Ending.resume_raised]

theorem span_of_many {m : Match (List α)} (h : (many budget p c).ending = .done m) :
    (span budget p c).ending = .done ⟨c.window.take (m.rest.pos - c.pos), m.rest⟩ := by
  rw [many_eq] at h
  obtain ⟨ms, hwalk, -, hstop⟩ := walk_of_repeated hp _ _ budget c m h
  exact hwalk.ending_span_of_end hp hc hbudget (Or.inr (hstop rfl))

theorem many_of_span {m : Match (List UInt8)} (h : (span budget p c).ending = .done m) (hleft : m.rest.window ≠ []) :
    ∃ values, (many budget p c).ending = .done ⟨values, m.rest⟩ := by
  obtain ⟨ms, d, hlongest⟩ := exists_isLongestWalk p c
  rw [hlongest.ending_span hp hc hbudget] at h
  split at h
  · rename_i hend
    obtain rfl := Ending.done.inj h
    exact absurd (d.atEnd_iff.1 hend) hleft
  · -- the walk ends inside the window, so it was the parser that ended it
    cases he : (p d).ending with
    | failed reason =>
      rw [he, Ending.resume_failed] at h
      obtain rfl := Ending.done.inj h
      exact ⟨ms.map Match.value, by rw [hlongest.ending_many hp hbudget, he, Ending.resume_failed]⟩
    | done | raised | unfinished =>
      rw [he] at h
      cases h

/-- If the parser would fail at the end of the window, it does not show that it is not asked there. -/
theorem IsLongestWalk.ending_span_of_empty (h : p.IsLongestWalk c ms d)
    (hempty : ∀ here : Cursor, here.window = [] → ∃ reason, (p here).ending = .failed reason) :
    (span budget p c).ending =
      (p d).ending.resume (fun _ => .raised (.noProgress "take_while")) fun _ =>
        .done ⟨c.window.take (d.pos - c.pos), d⟩ := by
  rw [h.ending_span hp hc hbudget]
  split
  · rename_i hend
    obtain ⟨reason, hfailed⟩ := hempty d (d.atEnd_iff.1 hend)
    rw [hfailed, Ending.resume_failed]
  · rfl

end

/-- **The two repetitions of one parser.** Where the collecting one matches, the other one takes the bytes up to the same
place. Where the other one matches short of the end of the window, the collecting one matches too. At the end of the
window only the collecting one applies the parser once more; where the parser fails there in any case, both match alike,
are stuck alike and raise the same faults. -/
theorem span_agrees_many {p : Parser α} (hp : p.OnlyAdvances) {c : Cursor} (hc : c.window ≠ []) {budget : Nat}
    (hbudget : c.length < budget) :
    (∀ m, (many budget p c).ending = .done m →
        (span budget p c).ending = .done ⟨c.window.take (m.rest.pos - c.pos), m.rest⟩) ∧
      (∀ m, (span budget p c).ending = .done m → m.rest.window ≠ [] →
        ∃ values, (many budget p c).ending = .done ⟨values, m.rest⟩) ∧
      ((∀ here : Cursor, here.window = [] → ∃ reason, (p here).ending = .failed reason) →
        ((∃ m, (span budget p c).ending = .done m) ↔ ∃ m, (many budget p c).ending = .done m) ∧
          ((∃ name, (span budget p c).ending = .raised (.noProgress name)) ↔
            ∃ name, (many budget p c).ending = .raised (.noProgress name)) ∧
          ∀ fault, (∀ name, fault ≠ .noProgress name) →
            ((span budget p c).ending = .raised fault ↔ (many budget p c).ending = .raised fault)) := by
  refine ⟨fun m => span_of_many hp hc hbudget, fun m => many_of_span hp hc hbudget, fun hempty => ?_⟩
  obtain ⟨ms, d, hlongest⟩ := exists_isLongestWalk p c
  rw [hlongest.ending_span_of_empty hp hc hbudget hempty, hlongest.ending_many hp hbudget]
  cases (p d).ending with
  | done m =>
    -- both are stuck, each in its own name
    refine ⟨by simp, by simp, fun fault hfault => ⟨fun h => ?_, fun h => ?_⟩⟩
    · exact absurd (Ending.raised.inj h).symm (hfault "take_while")
    · exact absurd (Ending.raised.inj h).symm (hfault "one_or_more")
  | failed reason => simp
  | raised fault => simp
  | unfinished => simp

/-- The letters and commas again, with one more letter behind them. -/
theorem span_agrees_many_letters :
    let c : Cursor := ⟨⟨#[0x78, 0x61, 0x2c, 0x61, 0x2c, 0x61, 0x78]⟩, 1, 6, by decide, by decide⟩
    let item : Parser UInt8 := before (byte 0x61) (byte 0x2c)
    item.OnlyAdvances ∧ c.window ≠ [] ∧ c.length < 6 ∧
      (many 6 item c).ending = .done ⟨[0x61, 0x61], c.skip 4⟩ ∧
      (span 6 item c).ending = .done ⟨[0x61, 0x2c, 0x61, 0x2c], c.skip 4⟩ ∧
      (∀ here : Cursor, here.window = [] → ∃ reason, (item here).ending = .failed reason) ∧
      ((∃ m, (span 6 item c).ending = .done m) ↔ ∃ m, (many 6 item c).ending = .done m) := by
  intro c item
  have hp : item.OnlyAdvances := (onlyAdvances_satisfy _).before (onlyAdvances_satisfy _)
  have hc : c.window ≠ [] := by decide +kernel
  have hbudget : c.length < 6 := by decide
  have hmany : (many 6 item c).ending = .done ⟨[0x61, 0x61], c.skip 4⟩ := by decide +kernel
  have hempty : ∀ here : Cursor, here.window = [] → ∃ reason, (item here).ending = .failed reason := by
    intro here hwindow
    have hfailed : (byte 0x61 here).ending = .failed .emptyInput := by
      rw [byte, satisfy_eq, hwindow]
      rfl
    exact ⟨.emptyInput, by rw [ending_before, hfailed, Ending.resume_failed]⟩
  obtain ⟨hspan, -, halike⟩ := span_agrees_many hp hc hbudget
  exact ⟨hp, hc, hbudget, hmany, hspan _ hmany, hempty, (halike hempty).1⟩

end Bytewise.Parser
