/-
# Bytewise.Proofs.Acceptance — what the entry points let through and what they make of it.

A caller hands in stored bytes or a cursor, and a limit. If the window is larger than the limit, nothing is applied to it:
the entry points end with the same fault whatever the parser is. Otherwise `run` ends as the parser does, and the
ending of a parse can be read back (`Ending.Accounts`): each way in which the parser can end shows in it, and so does
whether the whole window was consumed. That a parse tells these apart rests on two facts about all parsers that the
combinators build. The window they leave has the end of the window they got, so nothing is left exactly where the
position is that end. And no fault of their own looks like the refusal of a parse, unless a test or a function of the
caller raises that itself.

The core channel agrees with the ending: a parse has one line for a refusal and none for anything else, because parsers
report on the tracing channel only.
-/
import Bytewise.Buffer
import Bytewise.Proofs.Entry
import Bytewise.Proofs.Faults
import Bytewise.Proofs.Transparency

namespace Bytewise

/-! ## What a caller hands in -/

/-- **`Input`** — stored bytes, or a cursor that was made before. -/
inductive Input where
  | stored (b : Buffer)
  | window (c : Cursor)

namespace Input

/-- The window to parse: all the stored bytes, or the one that the cursor already is. -/
def cursor : Input → Except Fault Cursor
  | .stored b => b.cursor 0 (-1)
  | .window c => .ok c

/-- The number of bytes to parse. -/
def length : Input → Nat
  | .stored b => b.size
  | .window c => c.length

/-- The position at which everything is consumed. -/
def stop : Input → Nat
  | .stored b => b.size
  | .window c => c.stop

end Input

/-- Without bounds the window is the whole source. -/
theorem Cursor.ofBounds_whole (source : ByteArray) : Cursor.ofBounds source 0 (-1) = .ok (.ofBytes source) := by
  have hin : (0 : Int) ≤ 0 ∧ (0 : Int) ≤ source.size ∧ (source.size : Int) ≤ source.size := by omega
  simp only [Cursor.ofBounds, if_true, dif_pos hin]
  rfl

/-- Stored bytes that can be read as a source are read from the first to the last. -/
theorem Buffer.cursor_eq_ofBytes {b : Buffer} {c : Cursor} (h : b.cursor 0 (-1) = .ok c) : c = Cursor.ofBytes b.bytes := by
  unfold Buffer.cursor Buffer.source at h
  split at h
  · change Cursor.ofBounds b.bytes 0 (-1) = .ok c at h
    rw [Cursor.ofBounds_whole] at h
    cases h
    rfl
  · cases h

namespace Input

variable {input : Input} {c : Cursor}

theorem length_eq (h : input.cursor = .ok c) : c.length = input.length := by
  cases input with
  | stored b =>
    rw [Buffer.cursor_eq_ofBytes h]
    show b.bytes.size - 0 = b.size
    rw [b.size_bytes, Nat.sub_zero]
  | window d =>
    cases h
    rfl

theorem stop_eq (h : input.cursor = .ok c) : c.stop = input.stop := by
  cases input with
  | stored b =>
    rw [Buffer.cursor_eq_ofBytes h]
    exact b.size_bytes
  | window d =>
    cases h
    rfl

end Input

/-! ## The limit -/

namespace Parser

variable {α : Type} {levels : Levels} {limit : Option Int} {c : Cursor}

/-- **`mostBytes limit`** — the limit that holds: 64 MiB for a caller that gives none. -/
def mostBytes (limit : Option Int) : Int :=
  limit.getD (64 * 1024 * 1024)

/-- **`Exceeds limit size`** — there is a limit, and so many bytes are more than that. -/
def Exceeds (limit : Option Int) (size : Nat) : Prop :=
  0 < mostBytes limit ∧ mostBytes limit < size

instance decidableExceeds (limit : Option Int) (size : Nat) : Decidable (Exceeds limit size) :=
  inferInstanceAs (Decidable (_ ∧ _))

/-- The check refuses exactly the windows that exceed the limit. -/
theorem checkSize_of_exceeds (h : Exceeds limit c.length) :
    checkSize limit c = .error (.inputTooLarge c.length (mostBytes limit)) := by
  unfold checkSize
  exact if_pos h

theorem checkSize_of_not_exceeds (h : ¬ Exceeds limit c.length) : checkSize limit c = .ok () := by
  unfold checkSize
  exact if_neg h

/-- A refused window is not given to the parser. -/
theorem run_of_exceeds (h : Exceeds limit c.length) (levels : Levels) (p : Parser α) :
    run levels limit p c = .raise (.inputTooLarge c.length (mostBytes limit)) := by
  unfold run
  rw [checkSize_of_exceeds h]
  rfl

theorem parse_of_exceeds (h : Exceeds limit c.length) (levels : Levels) (p : Parser α) :
    parse levels limit p c = .raise (.inputTooLarge c.length (mostBytes limit)) := by
  unfold parse
  rw [run_of_exceeds h]
  rfl

/-- On a window of allowed size, `run` ends as the parser does. -/
theorem ending_run (hsize : checkSize limit c = .ok ()) (levels : Levels) (p : Parser α) :
    (run levels limit p c).ending = (p c).ending := by
  unfold run
  rw [hsize]
  rcases p c with ⟨m | reason | fault | _, trace⟩
  · rfl
  · cases levels.core <;> rfl
  · rfl
  · rfl

end Parser

/-! ## What a parse tells of its parser -/

namespace Ending

/-- **`e.Accounts stop parsed`** — a parse that ended with `parsed` tells how its parser ended, which is `e`, and whether
that was at the position `stop`. -/
structure Accounts {α : Type} (e : Ending (Match α)) (stop : Nat) (parsed : Ending α) : Prop where
  /-- A value is that of a match that consumed everything. -/
  done_iff : ∀ value, parsed = .done value ↔ ∃ m, e = .done m ∧ m.value = value ∧ m.rest.pos = stop
  /-- A refusal is a failure, with its reason, or a match that left something. -/
  parseFailed_iff : ∀ reason, parsed = .raised (.parseFailed reason) ↔
    e = .failed reason ∨ reason = .notEmpty ∧ ∃ m, e = .done m ∧ m.rest.pos < stop
  /-- Any other fault is one of the parser. -/
  raised_iff : ∀ fault, (∀ reason, fault ≠ .parseFailed reason) → (parsed = .raised fault ↔ e = .raised fault)
  /-- A parse does not fail: it refuses. -/
  not_failed : ∀ reason, parsed ≠ .failed reason
  unfinished_iff : parsed = .unfinished ↔ e = .unfinished

namespace Accounts

variable {α : Type} {stop : Nat}

theorem done_of_eq {m : Match α} (h : m.rest.pos = stop) : (Ending.done m).Accounts stop (.done m.value) where
  done_iff := by simp [h]
  parseFailed_iff := by simp [h]
  raised_iff := by simp
  not_failed := nofun
  unfinished_iff := by simp

theorem done_of_lt {m : Match α} (h : m.rest.pos < stop) :
    (Ending.done m).Accounts stop (.raised (.parseFailed .notEmpty)) where
  done_iff := by simp [Nat.ne_of_lt h]
  parseFailed_iff := by simp [h, eq_comm]
  raised_iff fault hfault := by simp [(hfault .notEmpty).symm]
  not_failed := nofun
  unfinished_iff := by simp

theorem failed (reason : Reason) :
    (Ending.failed reason : Ending (Match α)).Accounts stop (.raised (.parseFailed reason)) where
  done_iff := by simp
  parseFailed_iff := by simp
  raised_iff fault hfault := by simp [(hfault reason).symm]
  not_failed := nofun
  unfinished_iff := by simp

/-- Only a fault that does not look like a refusal can be told from one. -/
theorem raised {fault : Fault} (h : ∀ reason, fault ≠ .parseFailed reason) :
    (Ending.raised fault : Ending (Match α)).Accounts stop (.raised fault) where
  done_iff := by simp
  parseFailed_iff := by simp [h]
  raised_iff := by simp
  not_failed := nofun
  unfinished_iff := by simp

theorem unfinished : (Ending.unfinished : Ending (Match α)).Accounts stop .unfinished where
  done_iff := by simp
  parseFailed_iff := by simp
  raised_iff := by simp
  not_failed := nofun
  unfinished_iff := by simp

end Accounts

end Ending

namespace Parser

variable {α : Type} {levels : Levels} {limit : Option Int} {p : Parser α} {c : Cursor}

/-- The ending of a parse, from the ending of its parser. -/
theorem ending_parse_eq (levels : Levels) (p : Parser α) (hsize : checkSize limit c = .ok ()) :
    (parse levels limit p c).ending =
      (p c).ending.resume
        (fun m => if m.rest.atEnd then .done m.value else .raised (.parseFailed .notEmpty))
        fun reason => .raised (.parseFailed reason) := by
  rw [ending_parse levels p hsize, ending_whole, Ending.resume_resume]
  congr 1
  funext m
  split <;> rfl

/-- **A parse tells how its parser ended,** if that keeps the end of the window and raises no refusal of its own. -/
theorem accounts_parse (levels : Levels) (hsize : checkSize limit c = .ok ())
    (hstop : (p c).ending.Holds fun m => m.rest.stop = c.stop)
    (hown : ∀ reason, (p c).ending ≠ .raised (.parseFailed reason)) :
    (p c).ending.Accounts c.stop (parse levels limit p c).ending := by
  rw [ending_parse_eq levels p hsize]
  cases he : (p c).ending with
  | done m =>
    have hstop' : m.rest.stop = c.stop := hstop m he
    have hle := m.rest.pos_le_stop
    rw [Ending.resume_done]
    split
    · -- nothing is left, so the position is the end
      rename_i hend
      have hge : m.rest.stop ≤ m.rest.pos := of_decide_eq_true hend
      apply Ending.Accounts.done_of_eq
      omega
    · rename_i hend
      have hlt : ¬ m.rest.stop ≤ m.rest.pos := fun h => hend (decide_eq_true h)
      apply Ending.Accounts.done_of_lt
      omega
  | failed reason => exact .failed reason
  | raised fault =>
    refine .raised ?_
    rintro reason rfl
    exact hown reason he
  | unfinished => exact .unfinished

end Parser

/-! ## The core channel -/

/-- What is about a label is reported on the tracing channel. -/
theorem Event.channel_of_label? {event : Event} {label : String} (h : event.label? = some label) :
    event.channel = .tracing := by
  cases event with
  | trying | matched | failed => rfl
  | parseFailed | ruleDefined => cases h

/-- **`e.failureLines size`** — the lines on the core channel about a parse of `size` bytes that ended with `e`: one for a
refusal, and none for anything else. -/
def Ending.failureLines {α : Type} (size : Nat) : Ending α → List String
  | .raised (.parseFailed reason) => ["Parse of " ++ toString size ++ " bytes failed: " ++ reason.text]
  | _ => []

theorem Ending.failureLines_raised {α : Type} {fault : Fault} (h : ∀ reason, fault ≠ .parseFailed reason) (size : Nat) :
    (Ending.raised fault : Ending α).failureLines size = [] := by
  unfold Ending.failureLines
  split
  · rename_i reason heq
    injection heq with hfault
    exact absurd hfault (h reason)
  · rfl

namespace Attempt

variable {α : Type}

/-- **`x.coreLog`** — what an attempt reports on the core channel. -/
def coreLog (x : Attempt α) : List Event :=
  x.trace.filter fun event => event.channel = .core

theorem ReportsOnly.coreLog_eq_nil {x : Attempt α} (h : x.ReportsOnly fun event => event.channel = .tracing) :
    x.coreLog = [] := by
  unfold coreLog
  rw [List.filter_eq_nil_iff]
  intro event hevent
  rw [h event hevent]
  decide

end Attempt

/-- The label may be missing in the second run, which is not looked at. -/
theorem Parser.takesOut_reportsOnly (label : String) (tracing : Bool) :
    Parser.TakesOut (fun _ x _ => x.ReportsOnly fun event => event.channel = .tracing) label tracing tracing := by
  intro l p q h
  have hreport : tracing = true → ∀ event : Event, event.label? = some l →
      (Attempt.emit event).ReportsOnly fun event => event.channel = .tracing := by
    rintro - event hevent line hline
    obtain rfl := List.mem_singleton.1 hline
    exact Event.channel_of_label? hevent
  exact fun c => h.traced (Attempt.isCongruence_reportsOnly _) tracing l hreport c

namespace Rulebook

variable {book : Rulebook} {g : Grammar}

/-- **Parsers report on the tracing channel only.** -/
theorem parser_reportsOnly_tracing (hbook : book.IsLibrary) (hg : g.IsLibrary) (tracing : Bool) (fuel : Nat) (c : Cursor) :
    (book.parser tracing fuel g c).ReportsOnly fun event => event.channel = .tracing :=
  parser_related_unlabel (Attempt.isCongruence_reportsOnly _) (Parser.takesOut_reportsOnly "" tracing) hbook fuel hg c

end Rulebook

namespace Parser

variable {α : Type} {levels : Levels} {limit : Option Int} {p : Parser α} {c : Cursor}

/-- A parse reports what the whole parser reports and, behind that, a failure of it if the core channel is on. -/
theorem trace_parse (hsize : checkSize limit c = .ok ()) (p : Parser α) :
    (parse levels limit p c).trace =
      (p.whole c).trace ++
        match (p.whole c).ending with
        | .failed reason => if levels.core then [.parseFailed c.length reason] else []
        | _ => [] := by
  unfold parse run
  rw [hsize]
  rcases p.whole c with ⟨m | reason | fault | _, trace⟩
  · exact List.append_nil (trace ++ [])
  · cases levels.core with
    | false => exact List.append_nil (trace ++ [])
    | true => exact List.append_nil (trace ++ [Event.parseFailed c.length reason])
  · exact (List.append_nil trace).symm
  · exact (List.append_nil trace).symm

/-- **The core channel agrees with the ending** of a parse, if its parser raises no refusal of its own. -/
theorem coreLog_parse (hcore : levels.core = true) (hsize : checkSize limit c = .ok ())
    (hreports : (p.whole c).ReportsOnly fun event => event.channel = .tracing)
    (hown : ∀ reason, (p c).ending ≠ .raised (.parseFailed reason)) :
    (parse levels limit p c).coreLog.map Event.message = (parse levels limit p c).ending.failureLines c.length := by
  have hquiet : (p.whole c).trace.filter (fun event => event.channel = .core) = [] := hreports.coreLog_eq_nil
  unfold Attempt.coreLog
  rw [trace_parse hsize, List.filter_append, hquiet, List.nil_append, ending_parse_eq levels p hsize, ending_whole, hcore]
  cases he : (p c).ending with
  | done m =>
    rw [Ending.resume_done, Ending.resume_done]
    cases m.rest.atEnd <;> rfl
  | failed reason => rfl
  | raised fault =>
    have hfault : ∀ reason, fault ≠ .parseFailed reason := by
      rintro reason rfl
      exact hown reason he
    rw [Ending.resume_raised, Ending.resume_raised, Ending.failureLines_raised hfault]
    rfl
  | unfinished => rfl

end Parser

/-! ## Parsers that the combinators build -/

namespace Rulebook

variable {book : Rulebook} {g : Grammar} {input : Input} {c : Cursor}

/-- Only a test or a function of the caller raises the refusal of a parse. -/
theorem not_raised_parseFailed (hbook : book.IsLibrary) (hg : g.IsLibrary)
    (hcaller : ∀ h, book.Reaches g h → ∀ reason, ¬ h.Refuses (.parseFailed reason)) (tracing : Bool) (fuel : Nat)
    (c : Cursor) (reason : Reason) : (book.parser tracing fuel g c).ending ≠ .raised (.parseFailed reason) := by
  intro hraised
  have hends : book.Ends tracing g c (.raised (.parseFailed reason)) := ends_of_ending hraised nofun
  obtain ⟨h, hreaches, hmay⟩ := mayRaise_of_ends hbook hg hends
  cases hmay with
  | refused hrefuses => exact hcaller h hreaches reason hrefuses

/-- **What the entry points do with a window.** If it is larger than the limit they refuse it, whatever the parser is.
Otherwise `run` ends as the parser does and a parse accounts for it and for the whole window. The lines on the core channel
are those of the parse's ending. -/
theorem parse_accounts_for_window (hbook : book.IsLibrary) (hg : g.IsLibrary)
    (hcaller : ∀ h, book.Reaches g h → ∀ reason, ¬ h.Refuses (.parseFailed reason)) (hc : input.cursor = .ok c)
    (levels : Levels) (limit : Option Int) (fuel : Nat) :
    let p := book.parser levels.tracing fuel g
    let parsed := Parser.parse levels limit p c
    let tooLarge : Fault := .inputTooLarge input.length (Parser.mostBytes limit)
    (Parser.Exceeds limit input.length →
        ∀ q : Parser Value, Parser.run levels limit q c = .raise tooLarge ∧ Parser.parse levels limit q c = .raise tooLarge) ∧
      (¬ Parser.Exceeds limit input.length →
        (Parser.run levels limit p c).ending = (p c).ending ∧ (p c).ending.Accounts input.stop parsed.ending) ∧
      (levels.core = true → parsed.coreLog.map Event.message = parsed.ending.failureLines input.length) := by
  intro p parsed tooLarge
  have hown := not_raised_parseFailed hbook hg hcaller levels.tracing fuel c
  have hstop : (p c).ending.Holds fun m => m.rest.stop = c.stop := by
    have hadvances := parser_onlyAdvances hbook.over levels.tracing fuel hg.over
    exact (hadvances c).mono fun m hm => hm.stop_eq
  have hreports : (p.whole c).ReportsOnly fun event => event.channel = .tracing :=
    parser_reportsOnly_tracing hbook (.whole hg) levels.tracing fuel c
  rw [← Input.length_eq hc, ← Input.stop_eq hc]
  refine ⟨fun hlarge q => ?_, fun hsmall => ?_, fun hcore => ?_⟩
  · show _ = Attempt.raise (.inputTooLarge input.length _) ∧ _ = Attempt.raise (.inputTooLarge input.length _)
    rw [← Input.length_eq hc]
    exact ⟨Parser.run_of_exceeds hlarge levels q, Parser.parse_of_exceeds hlarge levels q⟩
  · have hsize := Parser.checkSize_of_not_exceeds hsmall
    exact ⟨Parser.ending_run hsize levels p, Parser.accounts_parse levels hsize hstop hown⟩
  · by_cases hlarge : Parser.Exceeds limit c.length
    · -- a refused window ends with another fault, and nothing is reported before it
      show (Parser.parse levels limit p c).coreLog.map _ = (Parser.parse levels limit p c).ending.failureLines _
      rw [Parser.parse_of_exceeds hlarge]
      rfl
    · exact Parser.coreLog_parse hcore (Parser.checkSize_of_not_exceeds hlarge) hreports hown

/-- Two groups inside each other and one more bracket, which is five bytes: with a limit of four they are refused, and
with a limit of five the last bracket is left. Where no limit is given they are let through, as 64 MiB of zeros are, and
one more byte is refused. -/
theorem parse_accounts_for_window_parens :
    let g : Grammar := .rule group
    let bytes : ByteArray := ⟨#[0x28, 0x28, 0x29, 0x29, 0x28]⟩
    let input : Input := .stored ⟨bytes, .growable, .straight, true⟩
    let c := Cursor.ofBytes bytes
    let levels : Levels := ⟨true, false⟩
    let p := parens.parser false 4 g
    let parsed := Parser.parse levels (some 5) p c
    let zeros : Nat → Cursor := fun size => Cursor.ofBytes ⟨Array.replicate size 0⟩
    let full := zeros (64 * 1024 * 1024)
    parens.IsLibrary ∧ g.IsLibrary ∧ (∀ h, parens.Reaches g h → ∀ reason, ¬ h.Refuses (.parseFailed reason)) ∧
      input.cursor = .ok c ∧ (∀ q : Parser Value, Parser.run levels (some 4) q c = .raise (.inputTooLarge 5 4)) ∧
      parsed.ending = .raised (.parseFailed .notEmpty) ∧
      parsed.coreLog.map Event.message = ["Parse of 5 bytes failed: not empty"] ∧
      (Parser.run levels none p c).ending = .done ⟨.none, c.skip 4⟩ ∧
      (Parser.run levels none p full).ending = (p full).ending ∧
      ∀ q : Parser Value, Parser.run levels none q (zeros (64 * 1024 * 1024 + 1)) =
        .raise (.inputTooLarge (64 * 1024 * 1024 + 1) (64 * 1024 * 1024)) := by
  intro g bytes input c levels p parsed zeros full
  have hg : g.IsLibrary := .rule group
  have hcaller : ∀ h, parens.Reaches g h → ∀ reason, ¬ h.Refuses (.parseFailed reason) := by
    let N : Grammar → Prop := fun h => ∀ reason, ¬ h.Refuses (.parseFailed reason)
    have hparens : ∀ r d, parens.find? r = some d → d.Everywhere N :=
      everywhere_parens (fun _ _ => id) (fun _ => id) (fun _ _ => id) (fun _ _ _ => id) fun _ _ _ => id
    exact fun h hreaches => hreaches.of_everywhere hparens ⟨fun _ => id, nofun⟩
  have hc : input.cursor = .ok c := Cursor.ofBounds_whole bytes
  have hfour := parse_accounts_for_window isLibrary_parens hg hcaller hc levels (some 4) 4
  have hfive := parse_accounts_for_window isLibrary_parens hg hcaller hc levels (some 5) 4
  have hfree := parse_accounts_for_window isLibrary_parens hg hcaller hc levels none 4
  have hdone : (p c).ending = .done ⟨.none, c.skip 4⟩ := by decide +kernel
  have hended : parsed.ending = .raised (.parseFailed .notEmpty) :=
    ((hfive.2.1 (by decide +kernel)).2.parseFailed_iff .notEmpty).2 (Or.inr ⟨rfl, _, hdone, by decide +kernel⟩)
  have hlines : parsed.ending.failureLines 5 = ["Parse of 5 bytes failed: not empty"] := by
    rw [hended]
    decide +kernel
  -- the large windows are known through their length only
  have hzeros : ∀ size, (Input.window (zeros size)).length = size := fun size => Array.size_replicate
  have hwindow : ∀ size, (Input.window (zeros size)).cursor = .ok (zeros size) := fun size => rfl
  have hfull := parse_accounts_for_window isLibrary_parens hg hcaller (hwindow (64 * 1024 * 1024)) levels none 4
  have hmore := parse_accounts_for_window isLibrary_parens hg hcaller (hwindow (64 * 1024 * 1024 + 1)) levels none 4
  rw [hzeros] at hfull hmore
  exact ⟨isLibrary_parens, hg, hcaller, hc, fun q => (hfour.1 (by decide +kernel) q).1, hended,
    (hfive.2.2 rfl).trans hlines, (hfree.2.1 (by decide +kernel)).1.trans hdone, (hfull.2.1 (by decide +kernel)).1,
    fun q => (hmore.1 (by decide +kernel) q).1⟩

end Rulebook

end Bytewise
