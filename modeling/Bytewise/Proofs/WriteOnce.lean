/-
# Bytewise.Proofs.WriteOnce — what is defined stays, and so does every answer.

Rules are the only state that parsers read, and a session only ever adds to them: it declares rules, and it defines
those that have no definition. So of two sessions, one later in the dialogue than the other, the later rulebook extends
the earlier one (`Rulebook.Extends`). This is shown for one request and follows for any number of them.

An extended rulebook gives the same answers and more. An application that ends without reaching a rule that is not
defined ends alike for ever after, and reports the same. That it has not reached one can be told from its ending: the
fault of an undefined rule passes through every combinator, so an application that met it ends with it. In
`Attempt.Approx` this is the fault that is counted as lost.
-/
import Bytewise.Proofs.Fuel
import Bytewise.Session

namespace Bytewise

namespace Rulebook

/-- **`later.Extends book`** — every definition of `book` is one of `later` too. -/
def Extends (later book : Rulebook) : Prop :=
  ∀ r g, book.find? r = some g → later.find? r = some g

/-- The fault of applying a rule without a definition. -/
def IsUndefined (fault : Fault) : Prop :=
  ∃ name, fault = .undefinedRule name

variable {book later : Rulebook}

theorem Extends.refl (book : Rulebook) : book.Extends book :=
  fun _ _ h => h

theorem Extends.trans {latest : Rulebook} (h : latest.Extends later) (h' : later.Extends book) : latest.Extends book :=
  fun r g hg => h r g (h' r g hg)

/-- A definition extends the rulebook, because it is refused where there is one already. -/
theorem extends_define {r : Rule} {g : Grammar} (h : book.define r g = .ok later) : later.Extends book := by
  intro r' g' hg'
  rw [find?_of_define h]
  split
  · rename_i hsame
    subst hsame
    have hdefined : book.isDefined r' = true := by rw [isDefined, hg', Option.isSome_some]
    obtain ⟨fault, hrefused⟩ := (book.define_eq_error_iff r' g).2 hdefined
    rw [h] at hrefused
    cases hrefused
  · exact hg'

/-- **Extending a rulebook changes no answer,** nor what is reported on the way to it. -/
theorem Extends.parser_eq (h : later.Extends book) {tracing : Bool} {fuel : Nat} {g : Grammar} {c : Cursor}
    (hanswer : ¬ (book.parser tracing fuel g c).ending.Lost IsUndefined) :
    later.parser tracing fuel g c = book.parser tracing fuel g c := by
  have hfind : ∀ r, book.find? r = later.find? r ∨ book.find? r = none ∧ IsUndefined (.undefinedRule r.name) := by
    intro r
    cases hr : book.find? r with
    | none => exact Or.inr ⟨rfl, r.name, rfl⟩
    | some d => exact Or.inl (h r d hr).symm
  have happrox : (book.parser tracing fuel g).Approx IsUndefined (later.parser tracing fuel g) :=
    parser_approx hfind (Nat.le_refl fuel) g
  exact ((happrox c).eq_of_not_lost hanswer).symm

/-- How an application ends with the definitions there are, it ends with more of them. -/
theorem Extends.ends (h : later.Extends book) {tracing : Bool} {g : Grammar} {c : Cursor} {e : Ending (Match Value)}
    (he : ∀ name, e ≠ .raised (.undefinedRule name)) (hends : book.Ends tracing g c e) : later.Ends tracing g c e := by
  obtain ⟨hfinished, fuel, hfuel⟩ := ends_iff.1 hends
  have hanswer : ¬ (book.parser tracing fuel g c).ending.Lost IsUndefined := by
    rw [hfuel]
    cases e with
    | done a => exact id
    | failed reason => exact id
    | raised fault =>
      rintro ⟨name, rfl⟩
      exact he name rfl
    | unfinished => exact absurd rfl hfinished
  have hlater : (later.parser tracing fuel g c).ending = e := by rw [h.parser_eq hanswer, hfuel]
  exact ends_of_ending hlater hfinished

end Rulebook

/-! ## Dialogues -/

namespace Session

/-- What a session is asked for. -/
inductive Request where
  /-- A new rule. -/
  | declare (name title : String)
  /-- A definition of a rule. -/
  | define (r : Rule) (g : Grammar)
  /-- An application, whose match the session's cursor follows. -/
  | apply (g : Grammar) (c : Cursor)

/-- **`s.serve request`** — the session after the request. A refused definition leaves it as it was. -/
def serve (s : Session) : Request → Session
  | .declare name title => (s.declare name title).2
  | .define r g =>
    match (s.define r g).ending with
    | .done s' => s'
    | _ => s
  | .apply g c => s.follow (s.apply g c)

/-- **`s.serveAll requests`** — the session after the requests, one after the other. -/
def serveAll (s : Session) (requests : List Request) : Session :=
  requests.foldl serve s

variable {s s' : Session} {r : Rule} {g : Grammar}

/-- A definition is taken up or refused by the rulebook. -/
theorem ending_define (s : Session) (r : Rule) (g : Grammar) :
    (s.define r g).ending =
      match s.book.define r g with
      | .ok book => .done { s with book }
      | .error fault => .raised fault := by
  unfold define
  cases s.book.define r g with
  | error fault => rfl
  | ok book => cases s.levels.core <;> rfl

/-- What a definition that is taken up does to the rulebook. -/
theorem define_of_ending (h : (s.define r g).ending = .done s') : s.book.define r g = .ok s'.book := by
  rw [ending_define] at h
  cases hdefine : s.book.define r g with
  | error fault =>
    rw [hdefine] at h
    cases h
  | ok book =>
    rw [hdefine] at h
    cases h
    rfl

/-- A second definition is a fault. -/
theorem ending_define_of_find? {d : Grammar} (h : s.book.find? r = some d) (g : Grammar) :
    (s.define r g).ending = .raised (.redefinedRule r.name) := by
  have hdefined : s.book.isDefined r = true := by rw [Rulebook.isDefined, h, Option.isSome_some]
  rw [ending_define, Rulebook.define, if_pos hdefined]

/-- An application moves the cursor at most. -/
theorem book_follow (s : Session) (attempt : Attempt (Match Value)) : (s.follow attempt).book = s.book := by
  unfold follow
  split <;> rfl

theorem book_serve_apply (s : Session) (g : Grammar) (c : Cursor) : (s.serve (.apply g c)).book = s.book :=
  s.book_follow (s.apply g c)

/-- **One request only adds definitions.** -/
theorem extends_serve (s : Session) (request : Request) : (s.serve request).book.Extends s.book := by
  cases request with
  | declare name title => exact fun _ _ h => h
  | define r g =>
    unfold serve
    dsimp only
    split
    · rename_i s' h
      exact Rulebook.extends_define (define_of_ending h)
    · exact .refl s.book
  | apply g c =>
    rw [book_serve_apply]
    exact .refl s.book

/-- **A dialogue only adds definitions.** -/
theorem extends_serveAll (s : Session) (requests : List Request) : (s.serveAll requests).book.Extends s.book := by
  induction requests generalizing s with
  | nil => exact .refl s.book
  | cons request requests ih => exact (ih (s.serve request)).trans (extends_serve s request)

/-- **Definitions are write-once, and answers are final.** Once a definition of a rule was taken up, the rule keeps it in
whatever the dialogue goes on to be, and every other definition of it is refused with a fault and changes nothing. An
application that ends at some point of a dialogue, with anything but the fault of an undefined rule, ends in the same
way at every later point. -/
theorem definitions_write_once (s : Session) :
    (∀ r g s', (s.define r g).ending = .done s' → ∀ requests,
      let later := s'.serveAll requests
      later.book.find? r = some g ∧
        ∀ g', (later.define r g').ending = .raised (.redefinedRule r.name) ∧ later.serve (.define r g') = later) ∧
    ∀ requests tracing g c e, s.book.Ends tracing g c e → (∀ name, e ≠ .raised (.undefinedRule name)) →
      (s.serveAll requests).book.Ends tracing g c e := by
  refine ⟨fun r g s' h requests => ?_, fun requests tracing g c e hends he => ?_⟩
  · intro later
    have hdefined : s'.book.find? r = some g := by
      rw [Rulebook.find?_of_define (define_of_ending h), if_pos rfl]
    have hlater : later.book.find? r = some g := extends_serveAll s' requests r g hdefined
    refine ⟨hlater, fun g' => ?_⟩
    have hrefused := ending_define_of_find? hlater g'
    refine ⟨hrefused, ?_⟩
    rw [serve, hrefused]
  · exact (extends_serveAll s requests).ends he hends

/-- A group is defined, and a choice between a group and a rule without a definition finds a group. Then the dialogue goes
on: the group is defined once more, in vain, and the other rule gets a definition. -/
theorem definitions_write_once_group :
    let other : Rule := ⟨1, "other"⟩
    let body : Grammar := .andThen (.byte 0x28) (.before (.optional (.rule Rulebook.group)) (.byte 0x29))
    let s : Session := declareAll {} [("group", "group"), ("other", "other")]
    let s' : Session := { s with book := { s.book with definitions := [(Rulebook.group, body)] } }
    let requests : List Request :=
      [.define Rulebook.group .endOfInput, .define other (.take 1), .apply (.rule other) Rulebook.nested]
    let later := s'.serveAll requests
    let g : Grammar := .firstOf [.rule Rulebook.group, .rule other]
    (s.define Rulebook.group body).ending = .done s' ∧ later.book.find? Rulebook.group = some body ∧
      later.book.find? other = some (.take 1) ∧
      (later.define Rulebook.group .endOfInput).ending = .raised (.redefinedRule "group") ∧
      later.serve (.define Rulebook.group .endOfInput) = later ∧
      ∃ m, s'.book.Ends false g Rulebook.nested (.done m) ∧ later.book.Ends false g Rulebook.nested (.done m) := by
  intro other body s s' requests later g
  have hdefine : (s.define Rulebook.group body).ending = .done s' := rfl
  obtain ⟨hkept, hsecond⟩ := (definitions_write_once s).1 Rulebook.group body s' hdefine requests
  obtain ⟨hraised, hunchanged⟩ := hsecond .endOfInput
  have hother : later.book.find? other = some (.take 1) := by
    let before := s'.serveAll [.define Rulebook.group .endOfInput, .define other (.take 1)]
    have hbook : later.book = before.book := book_serve_apply before (.rule other) Rulebook.nested
    rw [hbook]
    rfl
  obtain ⟨m, hm⟩ : ∃ m, (s'.book.parser false 4 g Rulebook.nested).ending = .done m := by decide +kernel
  have hends : s'.book.Ends false g Rulebook.nested (.done m) := Rulebook.ends_of_ending hm nofun
  have hlater := (definitions_write_once s').2 requests false g Rulebook.nested (.done m) hends (fun _ => nofun)
  exact ⟨hdefine, hkept, hother, hraised, hunchanged, m, hends, hlater⟩

end Session

end Bytewise
