/-
# Bytewise.Proofs.Choice — the laws of ordered choice.

A choice goes on after a failure and after nothing else. So it is decided by the first alternative that does not fail, and
what stands behind that one is not applied. `orElse`, the choice between two parsers, is associative, and a choice between
more of them is a chain of it. From this come the rewritings that authors of grammars make by hand: choices inside
choices are flattened, an alternative that stands there already is dropped, the negation of a choice becomes a sequence of
negations, and a prefix that all alternatives share is taken out (`ordered_choice_laws`).

The parsers are any functions from cursors to attempts. Flattening and negation keep the trace as well. The other two do
not, since they apply a parser less often, and taking out a prefix does not keep the reason of a failure either.
-/
import Bytewise.Proofs.Ending
import Mathlib.Data.List.Basic

namespace Bytewise

/-! ## Endings that a choice goes on after -/

namespace Ending

variable {α β : Type}

/-- **`e.Fails`** — it is a failure, for whatever reason. -/
def Fails (e : Ending α) : Prop :=
  ∃ reason, e = .failed reason

/-- **`e.Agrees d`** — both are the same match or the same fault, or both are failures, for reasons that may differ. -/
inductive Agrees : Ending α → Ending α → Prop
  | done (a : α) : Agrees (.done a) (.done a)
  | failed (reason reason' : Reason) : Agrees (.failed reason) (.failed reason')
  | raised (fault : Fault) : Agrees (.raised fault) (.raised fault)
  | unfinished : Agrees .unfinished .unfinished

theorem Agrees.refl (e : Ending α) : e.Agrees e := by
  cases e with
  | done a => exact .done a
  | failed reason => exact .failed reason reason
  | raised fault => exact .raised fault
  | unfinished => exact .unfinished

end Ending

namespace Parser

variable {α β : Type} {c : Cursor}

/-! ## One or the other -/

/-- **`orElse p q`** — `p`, or `q` where `p` fails. -/
def orElse (p q : Parser α) : Parser α := fun c => do
  match ← (p c).settle with
  | .ok m => return m
  | .error _ => q c

/-- A choice is a chain of `orElse`. -/
theorem firstOf_cons (p : Parser α) (ps : List (Parser α)) : firstOf (p :: ps) = orElse p (firstOf ps) := rfl

theorem firstOf_nil : firstOf ([] : List (Parser α)) = reject .noParserSucceeded := rfl

theorem reject_orElse (reason : Reason) (q : Parser α) : orElse (reject reason) q = q := rfl

/-- Which one is tried first and what comes after it does not depend on the brackets. -/
theorem orElse_assoc (p q r : Parser α) : orElse (orElse p q) r = orElse p (orElse q r) := by
  funext c
  simp only [orElse, Attempt.bind_eq, Attempt.pure_eq]
  rcases p c with ⟨m | reason | fault | _, trace⟩
  · simp [Attempt.settle, Attempt.bind, Attempt.done]
  · -- after the failure of `p` both sides go on with `q`
    rcases q c with ⟨m | reason | fault | _, next⟩ <;> simp [Attempt.settle, Attempt.bind, Attempt.done]
  · rfl
  · rfl

/-- After a failure the second parser decides, and its reports follow those of the first. -/
theorem orElse_of_fails {p : Parser α} (h : (p c).ending.Fails) (q : Parser α) :
    orElse p q c = ⟨(q c).ending, (p c).trace ++ (q c).trace⟩ := by
  obtain ⟨reason, hreason⟩ := h
  rcases hp : p c with ⟨e, trace⟩
  rw [hp] at hreason
  cases hreason
  simp only [orElse, Attempt.bind_eq, hp, Attempt.settle, Attempt.bind]

/-- After everything else the second parser is not applied. -/
theorem orElse_of_not_fails {p : Parser α} (h : ¬ (p c).ending.Fails) (q : Parser α) : orElse p q c = p c := by
  simp only [orElse, Attempt.bind_eq, Attempt.pure_eq]
  rcases hp : p c with ⟨m | reason | fault | _, trace⟩
  · simp [Attempt.settle, Attempt.bind, Attempt.done]
  · exact absurd ⟨reason, by rw [hp]⟩ h
  · rfl
  · rfl

theorem firstOf_append (ps qs : List (Parser α)) : firstOf (ps ++ qs) = orElse (firstOf ps) (firstOf qs) := by
  induction ps with
  | nil => rw [List.nil_append, firstOf_nil, reject_orElse]
  | cons p ps ih => rw [List.cons_append, firstOf_cons, firstOf_cons, ih, orElse_assoc]

/-! ## The first that does not fail -/

/-- What the parsers report at `c`, one after the other. -/
def traces (ps : List (Parser α)) (c : Cursor) : List Event :=
  ps.flatMap fun p => (p c).trace

theorem firstOf_of_forall_fails {ps : List (Parser α)} (h : ∀ p ∈ ps, (p c).ending.Fails) :
    firstOf ps c = ⟨.failed .noParserSucceeded, traces ps c⟩ := by
  induction ps with
  | nil => rfl
  | cons p ps ih =>
    obtain ⟨hp, hps⟩ := List.forall_mem_cons.1 h
    rw [firstOf_cons, orElse_of_fails hp, ih hps]
    simp only [traces, List.flatMap_cons]

/-- **The first parser that does not fail decides**, and what stands behind it leaves no trace. -/
theorem firstOf_of_not_fails {front : List (Parser α)} {q : Parser α} (hfront : ∀ p ∈ front, (p c).ending.Fails)
    (hq : ¬ (q c).ending.Fails) (back : List (Parser α)) :
    firstOf (front ++ q :: back) c = ⟨(q c).ending, traces front c ++ (q c).trace⟩ := by
  have hall := firstOf_of_forall_fails hfront
  have hfails : (firstOf front c).ending.Fails := ⟨_, congrArg Attempt.ending hall⟩
  rw [firstOf_append, orElse_of_fails hfails, firstOf_cons, orElse_of_not_fails hq, hall]

/-- Either all parsers fail, or there is a first one that does not. -/
theorem forall_fails_or (ps : List (Parser α)) (c : Cursor) :
    (∀ p ∈ ps, (p c).ending.Fails) ∨ ∃ front q back, ps = front ++ q :: back ∧
      (∀ p ∈ front, (p c).ending.Fails) ∧ ¬ (q c).ending.Fails := by
  induction ps with
  | nil => exact Or.inl nofun
  | cons p ps ih =>
    by_cases hp : (p c).ending.Fails
    · rcases ih with hall | ⟨front, q, back, rfl, hfront, hq⟩
      · exact Or.inl (List.forall_mem_cons.2 ⟨hp, hall⟩)
      · exact Or.inr ⟨p :: front, q, back, rfl, List.forall_mem_cons.2 ⟨hp, hfront⟩, hq⟩
    · exact Or.inr ⟨[], p, ps, rfl, nofun, hp⟩

/-- A choice fails exactly if all its alternatives do, and then with a reason of its own. -/
theorem ending_firstOf_eq_failed_iff {ps : List (Parser α)} {reason : Reason} :
    (firstOf ps c).ending = .failed reason ↔ reason = .noParserSucceeded ∧ ∀ p ∈ ps, (p c).ending.Fails := by
  constructor
  · intro h
    rcases forall_fails_or ps c with hall | ⟨front, q, back, rfl, hfront, hq⟩
    · rw [firstOf_of_forall_fails hall] at h
      cases h
      exact ⟨rfl, hall⟩
    · rw [firstOf_of_not_fails hfront hq] at h
      exact absurd ⟨reason, h⟩ hq
  · rintro ⟨rfl, hall⟩
    rw [firstOf_of_forall_fails hall]

/-- An alternative that stands further in front already may be dropped: where it is tried again it fails again. -/
theorem ending_firstOf_repetition {front : List (Parser α)} {q : Parser α} (hq : q ∈ front) (back : List (Parser α))
    (c : Cursor) : (firstOf (front ++ q :: back) c).ending = (firstOf (front ++ back) c).ending := by
  rw [firstOf_append, firstOf_append]
  by_cases hfails : (firstOf front c).ending.Fails
  · obtain ⟨reason, hreason⟩ := hfails
    have hagain : (q c).ending.Fails := (ending_firstOf_eq_failed_iff.1 hreason).2 q hq
    rw [orElse_of_fails ⟨reason, hreason⟩, orElse_of_fails ⟨reason, hreason⟩, firstOf_cons, orElse_of_fails hagain]
  · rw [orElse_of_not_fails hfails, orElse_of_not_fails hfails]

/-! ## Choices inside choices -/

/-- **`Alternatives α`** — a parser, or a choice between such. -/
inductive Alternatives (α : Type) where
  | single (p : Parser α)
  | group (members : List (Alternatives α))

namespace Alternatives

mutual

/-- The parser itself, or the choice between the members of the group. -/
def parser : Alternatives α → Parser α
  | .single p => p
  | .group members => firstOf (parsers members)

def parsers : List (Alternatives α) → List (Parser α)
  | [] => []
  | t :: ts => t.parser :: parsers ts

end

mutual

/-- The parsers in the order in which they stand there, without the groups. -/
def flat : Alternatives α → List (Parser α)
  | .single p => [p]
  | .group members => flatAll members

def flatAll : List (Alternatives α) → List (Parser α)
  | [] => []
  | t :: ts => t.flat ++ flatAll ts

end

mutual

/-- As an alternative a group may be replaced by what stands in it. The choice between this alone would have a reason of
its own, which is why there has to be something behind it. -/
theorem parser_orElse : ∀ (t : Alternatives α) (q : Parser α), orElse t.parser q = orElse (firstOf t.flat) q
  | .single p, q => by rw [parser, flat, firstOf_cons, firstOf_nil, orElse_assoc, reject_orElse]
  | .group members, q => by rw [parser, flat, firstOf_parsers members]

/-- **Choices inside a choice are flattened**, to any depth. -/
theorem firstOf_parsers : ∀ ts : List (Alternatives α), firstOf (parsers ts) = firstOf (flatAll ts)
  | [] => by rw [parsers, flatAll]
  | t :: ts => by rw [parsers, flatAll, firstOf_cons, parser_orElse t, firstOf_parsers ts, ← firstOf_append]

end

end Alternatives

/-! ## The negation of a choice -/

/-- **`noneOf p ps`** — none of the parsers matches here, asked one after the other. -/
def noneOf (p : Parser α) : List (Parser α) → Parser Unit
  | [] => notFollowedBy p
  | q :: qs => andThen (notFollowedBy p) (noneOf q qs)

/-- The negation of a choice between two. -/
theorem notFollowedBy_orElse (p q : Parser α) :
    notFollowedBy (orElse p q) = andThen (notFollowedBy p) (notFollowedBy q) := by
  funext c
  simp only [notFollowedBy, andThen, orElse, Attempt.bind_eq, Attempt.pure_eq]
  rcases p c with ⟨m | reason | fault | _, trace⟩
  · simp [Attempt.settle, Attempt.bind, Attempt.done, Attempt.fail]
  · -- the negation of `p` leaves the window as it is, so `q` is asked at the same place
    simp only [Attempt.settle, Attempt.bind, Attempt.done, List.append_nil]
    rcases q c with ⟨m | reason | fault | _, next⟩ <;> simp [Attempt.fail]
  · rfl
  · rfl

/-- A choice with one alternative has a reason of its own, which a negation does not see. -/
theorem notFollowedBy_firstOf_singleton (p : Parser α) : notFollowedBy (firstOf [p]) = notFollowedBy p := by
  funext c
  simp only [firstOf_cons, firstOf_nil, notFollowedBy, orElse, reject, Attempt.bind_eq, Attempt.pure_eq]
  rcases p c with ⟨m | reason | fault | _, trace⟩ <;>
    simp [Attempt.settle, Attempt.bind, Attempt.done, Attempt.fail]

/-- **The negation of a choice is the sequence of the negations.** -/
theorem notFollowedBy_firstOf (p : Parser α) (ps : List (Parser α)) :
    notFollowedBy (firstOf (p :: ps)) = noneOf p ps := by
  induction ps generalizing p with
  | nil => rw [notFollowedBy_firstOf_singleton, noneOf]
  | cons q qs ih => rw [firstOf_cons, notFollowedBy_orElse, ih, noneOf]

/-! ## A prefix that all alternatives share -/

/-- Where the prefix matches, each alternative is applied behind it. -/
theorem ending_firstOf_andThen_of_done {x : Parser β} {m : Match β} (hx : (x c).ending = .done m)
    (ps : List (Parser α)) : (firstOf (ps.map (andThen x)) c).ending = (firstOf ps m.rest).ending := by
  induction ps with
  | nil => rfl
  | cons p ps ih =>
    rw [List.map_cons, ending_firstOf_cons, ending_firstOf_cons, ending_andThen, hx, Ending.resume_done, ih]

/-- **A prefix that all alternatives share may be taken out.** Only the reason of a failure depends on where it stands. -/
theorem firstOf_andThen_agrees (x : Parser β) (p : Parser α) (ps : List (Parser α)) (c : Cursor) :
    (firstOf ((p :: ps).map (andThen x)) c).ending.Agrees (andThen x (firstOf (p :: ps)) c).ending := by
  cases hx : (x c).ending with
  | done m =>
    rw [ending_firstOf_andThen_of_done hx, ending_andThen, hx, Ending.resume_done]
    exact .refl _
  | failed reason =>
    -- no alternative gets past the prefix
    have hall : ∀ q ∈ (p :: ps).map (andThen x), (q c).ending.Fails := by
      intro q hq
      obtain ⟨p', -, rfl⟩ := List.mem_map.1 hq
      exact ⟨reason, by rw [ending_andThen, hx, Ending.resume_failed]⟩
    rw [firstOf_of_forall_fails hall, ending_andThen, hx, Ending.resume_failed]
    exact .failed _ reason
  | raised fault =>
    rw [List.map_cons, ending_firstOf_cons, ending_andThen, ending_andThen, hx, Ending.resume_raised,
      Ending.resume_raised, Ending.resume_raised]
    exact .raised fault
  | unfinished =>
    rw [List.map_cons, ending_firstOf_cons, ending_andThen, ending_andThen, hx, Ending.resume_unfinished,
      Ending.resume_unfinished, Ending.resume_unfinished]
    exact .unfinished

/-! ## All laws -/

/-- **The laws of ordered choice.** Between parsers of any kind a choice ends as the first of them that does not fail, and
fails with its own reason exactly if all do. Choices inside it, to any depth, may be flattened or formed, and an
alternative that stands further in front already may be dropped. Its negation is the sequence of the negations, and a
prefix that all alternatives share may be taken out. -/
theorem ordered_choice_laws (p : Parser α) (ps : List (Parser α)) (x : Parser β) (c : Cursor) :
    let all := p :: ps
    ((∀ q ∈ all, (q c).ending.Fails) ∧ firstOf all c = ⟨.failed .noParserSucceeded, traces all c⟩ ∨
      ∃ front q back, all = front ++ q :: back ∧ (∀ r ∈ front, (r c).ending.Fails) ∧ ¬ (q c).ending.Fails ∧
        firstOf all c = ⟨(q c).ending, traces front c ++ (q c).trace⟩) ∧
    ((firstOf all c).ending = .failed .noParserSucceeded ↔ ∀ q ∈ all, (q c).ending.Fails) ∧
    (∀ ts : List (Alternatives α), Alternatives.flatAll ts = all →
      firstOf (Alternatives.parsers ts) c = firstOf all c) ∧
    (∀ front q back, all = front ++ q :: back → q ∈ front →
      (firstOf (front ++ back) c).ending = (firstOf all c).ending) ∧
    notFollowedBy (firstOf all) c = noneOf p ps c ∧
    (firstOf (all.map (andThen x)) c).ending.Agrees (andThen x (firstOf all) c).ending := by
  intro all
  refine ⟨?_, ?_, fun ts hts => ?_, fun front q back hall hq => ?_, ?_, ?_⟩
  · rcases forall_fails_or all c with hfails | ⟨front, q, back, hall, hfront, hq⟩
    · exact Or.inl ⟨hfails, firstOf_of_forall_fails hfails⟩
    · refine Or.inr ⟨front, q, back, hall, hfront, hq, ?_⟩
      rw [hall]
      exact firstOf_of_not_fails hfront hq back
  · rw [ending_firstOf_eq_failed_iff]
    exact and_iff_right rfl
  · rw [Alternatives.firstOf_parsers, hts]
  · rw [hall]
    exact (ending_firstOf_repetition hq back c).symm
  · exact congrFun (notFollowedBy_firstOf p ps) c
  · exact firstOf_andThen_agrees x p ps c

/-- An alternative that always raises a fault, hidden behind one that matches: in a group, behind a repetition of the first
alternative, under a negation and behind a common prefix it stays hidden. -/
theorem ordered_choice_laws_hidden_fault :
    let a := byte 0x61
    let b := byte 0x62
    let broken : Parser UInt8 := fun c => .raise (.endOfInput c.pos)
    let c := Cursor.ofBytes "bb".toUTF8
    (firstOf [a, b, broken] c).ending = .done ⟨0x62, c.skip 1⟩ ∧
      firstOf (Alternatives.parsers [.single a, .group [.single b, .group [.single broken]]]) c = firstOf [a, b, broken] c ∧
      (firstOf [a, b, broken] c).ending = (firstOf [a, b, a, broken] c).ending ∧
      notFollowedBy (firstOf [a, b, broken]) c = noneOf a [b, broken] c ∧
      (firstOf ([a, b, broken].map (andThen b)) c).ending.Agrees (andThen b (firstOf [a, b, broken]) c).ending := by
  intro a b broken c
  obtain ⟨-, -, hgroups, -, hnegation, hprefix⟩ := ordered_choice_laws a [b, broken] b c
  obtain ⟨-, -, -, hrepetition, -, -⟩ := ordered_choice_laws a [b, a, broken] b c
  refine ⟨by decide +kernel, hgroups _ ?_, hrepetition [a, b] a [broken] rfl List.mem_cons_self, hnegation, hprefix⟩
  simp [Alternatives.flatAll, Alternatives.flat]

end Parser

end Bytewise
