/-
# Bytewise.Proofs.Faults — where a fault comes from.

A fault ends an application at once, and nothing makes it good. So it is worth knowing that every one of them has a
place in the grammar (`Rulebook.mayRaise_of_ends`): a test or a function of the caller that refuses its argument, a rule
without a definition, or a repetition of a grammar that may match without consuming. The place need not be in the tree
that was applied; it may be in any definition that the tree reaches through its rules.

What the cursors themselves could raise is not in the list. Moves are by counts that are not negative and the next
byte is asked for where there is one, in every nesting of combinators and in both loops.

The guard of the repetitions is the last entry of the list. Where only consuming grammars are repeated it never trips
(`Rulebook.consuming_never_stuck`).
-/
import Bytewise.Proofs.Termination

namespace Bytewise

/-! ## What a grammar reaches -/

/-- **`parts g`** — the grammars that `g` is put together from. -/
def Grammar.parts : Grammar → List Grammar
  | .take _ | .byte _ | .literal _ | .satisfy _ => []
  | .upToFirst _ | .upToFirst1 _ | .upToLast _ | .upToLast1 _ => []
  | .span inner | .span1 inner | .many inner | .many1 inner => [inner]
  | .map _ inner | .traced _ inner | .whole inner => [inner]
  | .optional inner | .notFollowedBy inner | .lookahead inner => [inner]
  | .separated left separator right => [left, separator, right]
  | .andThen first second | .before first second => [first, second]
  | .firstOf alternatives => alternatives
  | .endOfInput | .moreInput | .rule _ | .leaf _ => []
  | .within _ inner => [inner]

namespace Rulebook

/-- **`book.Reaches g h`** — `h` stands in `g`, or in a definition that `g` reaches through its rules. -/
inductive Reaches (book : Rulebook) : Grammar → Grammar → Prop
  | refl (g : Grammar) : Reaches book g g
  | part {g h k : Grammar} : h ∈ g.parts → Reaches book h k → Reaches book g k
  | rule {r : Rule} {d k : Grammar} : book.find? r = some d → Reaches book d k → Reaches book (.rule r) k

end Rulebook

/-- **`g.Everywhere N`** — `N` holds of `g`, of its parts, of their parts and so on. -/
inductive Grammar.Everywhere (N : Grammar → Prop) : Grammar → Prop
  | intro {g : Grammar} : N g → (∀ h ∈ g.parts, Everywhere N h) → Everywhere N g

/-- To know something of all that is reached it is enough to look through the tree and through each definition. -/
theorem Rulebook.Reaches.of_everywhere {book : Rulebook} {N : Grammar → Prop} {g h : Grammar} (hreaches : book.Reaches g h)
    (hbook : ∀ r d, book.find? r = some d → d.Everywhere N) (hg : g.Everywhere N) : N h := by
  induction hreaches with
  | refl g =>
    obtain ⟨hself, -⟩ := hg
    exact hself
  | part hpart _ ih =>
    obtain ⟨-, hparts⟩ := hg
    exact ih (hparts _ hpart)
  | rule hfind _ ih => exact ih (hbook _ _ hfind)

/-! ## What may be raised where -/

/-- **`g.Refuses fault`** — `g` is a test or a function, and there is an argument that it refuses with this fault. -/
def Grammar.Refuses : Grammar → Fault → Prop
  | .satisfy test, fault | .upToFirst test, fault | .upToFirst1 test, fault => ∃ b, test b = .error fault
  | .upToLast test, fault | .upToLast1 test, fault => ∃ b, test b = .error fault
  | .map f _, fault => ∃ v, f v = .error fault
  | _, _ => False

/-- **`g.repetition?`** — if `g` repeats a grammar, that grammar and the name under which the repetition reports that it is
stuck. -/
def Grammar.repetition? : Grammar → Option (String × Grammar)
  | .span inner | .span1 inner => some ("take_while", inner)
  | .many inner | .many1 inner => some ("one_or_more", inner)
  | _ => none

/-- **`book.MayRaise g fault`** — `g` itself, its parts apart, may raise the fault. -/
inductive Rulebook.MayRaise (book : Rulebook) : Grammar → Fault → Prop
  /-- A test or a function refuses its argument. -/
  | refused {g : Grammar} {fault : Fault} : g.Refuses fault → MayRaise book g fault
  /-- A rule has no definition. -/
  | undefined {r : Rule} : book.find? r = none → MayRaise book (.rule r) (.undefinedRule r.name)
  /-- What is repeated may match without consuming. -/
  | stuck {g inner : Grammar} {name : String} :
      g.repetition? = some (name, inner) → inner.consuming = false → MayRaise book g (.noProgress name)

/-- **`book.Permits F g`** — `F` holds of every fault that may be raised in what `g` reaches. -/
def Rulebook.Permits (book : Rulebook) (F : Fault → Prop) (g : Grammar) : Prop :=
  ∀ h fault, book.Reaches g h → book.MayRaise h fault → F fault

namespace Rulebook.Permits

variable {book : Rulebook} {F : Fault → Prop} {g h : Grammar}

theorem self (hF : book.Permits F g) {fault : Fault} (h : book.MayRaise g fault) : F fault :=
  hF g fault (.refl g) h

theorem part (hF : book.Permits F g) (hpart : h ∈ g.parts) : book.Permits F h :=
  fun k fault hk => hF k fault (.part hpart hk)

theorem definition {r : Rule} (hF : book.Permits F (.rule r)) (hfind : book.find? r = some g) : book.Permits F g :=
  fun k fault hk => hF k fault (.rule hfind hk)

end Rulebook.Permits

/-! ## Endings with permitted faults only -/

/-- **`e.RaisesOnly F`** — if it is a fault, `F` holds of it. -/
def Ending.RaisesOnly {α : Type} (F : Fault → Prop) (e : Ending α) : Prop :=
  ∀ fault, e = .raised fault → F fault

/-- **`p.RaisesOnly F`** — `F` holds of every fault with which `p` ends. -/
def Parser.RaisesOnly {α : Type} (F : Fault → Prop) (p : Parser α) : Prop :=
  ∀ c, (p c).ending.RaisesOnly F

namespace Ending.RaisesOnly

variable {α β : Type} {F : Fault → Prop} {e : Ending α} {hit : α → Ending β} {miss : Reason → Ending β}

theorem done (a : α) : (Ending.done a).RaisesOnly F := nofun

theorem failed (reason : Reason) : (Ending.failed reason : Ending α).RaisesOnly F := nofun

theorem unfinished : (Ending.unfinished : Ending α).RaisesOnly F := nofun

theorem raised {fault : Fault} (h : F fault) : (Ending.raised fault : Ending α).RaisesOnly F := by
  intro fault' heq
  cases heq
  exact h

/-- What follows an ending raises what the ending raises and what is raised after it. -/
theorem resume (he : e.RaisesOnly F) (hhit : ∀ a, e = .done a → (hit a).RaisesOnly F)
    (hmiss : ∀ reason, (miss reason).RaisesOnly F) : (e.resume hit miss).RaisesOnly F := by
  cases e with
  | done a => exact hhit a rfl
  | failed reason => exact hmiss reason
  | raised fault => exact .raised (he fault rfl)
  | unfinished => exact .unfinished

/-- A refused match is a failure and no fault. -/
theorem refuseEmpty (m : Match Value) : m.refuseEmpty.RaisesOnly F := by
  unfold Match.refuseEmpty
  split
  · exact .failed _
  · exact .done _

end Ending.RaisesOnly

namespace Parser

variable {α : Type} {F : Fault → Prop}

/-- **The guard of a repetition.** It is passed by every match that consumes; otherwise its fault has to be permitted. -/
theorem RaisesOnly.repeated {p : Parser α} (hp : p.RaisesOnly F) {repetition : String}
    (hguard : p.Shortens 1 ∨ F (.noProgress repetition)) (goOn : Cursor → Bool) (budget : Nat) :
    (Parser.repeated goOn repetition budget p).RaisesOnly F := by
  induction budget with
  | zero => exact fun c => .unfinished
  | succ budget ih =>
    intro c
    rw [ending_repeated_succ]
    split
    · refine (hp c).resume (fun m hm => ?_) fun _ => .done _
      split
      · rename_i hsame
        refine .raised (hguard.resolve_left fun hshortens => ?_)
        have hless := hshortens c m hm
        omega
      · exact (ih m.rest).resume (fun n _ => .done _) .failed
    · exact .done _

end Parser

namespace Grammar

variable {σ : Setting} {book : Rulebook} {F : Fault → Prop} {inner : Grammar}

theorem raisesOnly_satisfy {test : Predicate} (h : ∀ fault, (∃ b, test b = .error fault) → F fault) :
    ((Grammar.satisfy test).parser σ).RaisesOnly F := by
  intro c
  rw [ending_satisfy]
  cases c.window with
  | nil => exact .failed _
  | cons b bs =>
    dsimp only
    cases hb : test b with
    | error fault => exact .raised (h fault ⟨b, hb⟩)
    | ok answer =>
      cases answer with
      | true => exact .done _
      | false => exact .failed _

/-- A scan raises what its search raises. -/
theorem raisesOnly_splitAt {search : Cursor → Except Fault (Option Nat)}
    (h : ∀ c fault, search c = .error fault → F fault) : ((Parser.splitAt search).as Value.bytes).RaisesOnly F := by
  intro c
  rw [Parser.ending_as, Parser.splitAt_eq]
  cases hfound : search c with
  | error fault => exact .raised (h c fault hfound)
  | ok offset => exact .done _

theorem raisesOnly_upToFirst {test : Predicate} (h : ∀ fault, (∃ b, test b = .error fault) → F fault) :
    ((Grammar.upToFirst test).parser σ).RaisesOnly F := by
  refine raisesOnly_splitAt fun c fault hfound => h fault ?_
  rw [Cursor.findFirst_eq] at hfound
  exact exists_of_firstIndex_eq_error hfound

theorem raisesOnly_upToLast {test : Predicate} (h : ∀ fault, (∃ b, test b = .error fault) → F fault) :
    ((Grammar.upToLast test).parser σ).RaisesOnly F := by
  refine raisesOnly_splitAt fun c fault hfound => h fault ?_
  rw [Cursor.findLast_eq] at hfound
  exact exists_of_lastIndex_eq_error hfound

/-- What a grammar repeats either consumes or may be stuck there. -/
theorem shortens_or_permitted (hadvances : ∀ r, (σ.call r).OnlyAdvances) {g : Grammar} {name : String}
    (hg : g.repetition? = some (name, inner)) (hinner : inner.IsLibrary) (hF : book.Permits F g) :
    (inner.parser σ).Shortens 1 ∨ F (.noProgress name) := by
  cases hconsuming : inner.consuming with
  | true =>
    left
    have hshortens := parser_shortens hadvances hinner.over
    rwa [hconsuming] at hshortens
  | false => exact Or.inr (hF.self (.stuck hg hconsuming))

theorem raisesOnly_span (hinner : (inner.parser σ).RaisesOnly F)
    (hguard : (inner.parser σ).Shortens 1 ∨ F (.noProgress "take_while")) :
    ((Grammar.span inner).parser σ).RaisesOnly F := by
  intro c
  rw [ending_span]
  split
  · exact .failed _
  · exact (hinner.repeated hguard _ σ.budget c).resume (fun m _ => .done _) .failed

theorem raisesOnly_firstOf : ∀ {gs : List Grammar}, (∀ g ∈ gs, (g.parser σ).RaisesOnly F) →
    ((Grammar.firstOf gs).parser σ).RaisesOnly F
  | [], _ => fun _ => .failed _
  | g :: gs, h => by
    intro c
    rw [ending_firstOf_cons]
    refine (h g List.mem_cons_self c).resume (fun m _ => .done m) fun _ => ?_
    exact raisesOnly_firstOf (fun g' hg' => h g' (List.mem_cons_of_mem g hg')) c

/-- **One layer of combinators raises nothing of its own** but what `MayRaise` lists. -/
theorem parser_raisesOnly (hadvances : ∀ r, (σ.call r).OnlyAdvances)
    (hcall : ∀ r, book.Permits F (.rule r) → (σ.call r).RaisesOnly F) {g : Grammar} (hg : g.IsLibrary)
    (hF : book.Permits F g) : (g.parser σ).RaisesOnly F := by
  induction hg with
  | take count =>
    intro c
    rw [ending_take]
    split
    · exact .failed _
    · split
      · exact .failed _
      · exact .done _
  | literal expected =>
    intro c
    rw [ending_literal]
    split
    · exact .failed _
    · split
      · exact .failed _
      · split
        · exact .done _
        · exact .failed _
  | endOfInput =>
    intro c
    rw [ending_endOfInput]
    split
    · exact .done _
    · exact .failed _
  | moreInput =>
    intro c
    rw [ending_moreInput]
    split
    · exact .failed _
    · exact .done _
  -- tests of bytes: a fault is one of the test
  | byte expected =>
    rw [parser_byte]
    exact raisesOnly_satisfy nofun
  | satisfy test => exact raisesOnly_satisfy fun fault hfault => hF.self (.refused hfault)
  | upToFirst test => exact raisesOnly_upToFirst fun fault hfault => hF.self (.refused hfault)
  | upToLast test => exact raisesOnly_upToLast fun fault hfault => hF.self (.refused hfault)
  | upToFirst1 test =>
    intro c
    rw [ending_upToFirst1]
    have hplain := raisesOnly_upToFirst (σ := σ) fun fault hfault => hF.self (.refused hfault)
    exact (hplain c).resume (fun m _ => .refuseEmpty m) .failed
  | upToLast1 test =>
    intro c
    rw [ending_upToLast1]
    have hplain := raisesOnly_upToLast (σ := σ) fun fault hfault => hF.self (.refused hfault)
    exact (hplain c).resume (fun m _ => .refuseEmpty m) .failed
  -- repetitions: a fault is one of what is repeated, or the guard's
  | span h ih =>
    exact raisesOnly_span (ih (hF.part List.mem_cons_self)) (shortens_or_permitted hadvances rfl h hF)
  | span1 h ih =>
    intro c
    rw [ending_span1]
    have hplain := raisesOnly_span (ih (hF.part List.mem_cons_self)) (shortens_or_permitted hadvances rfl h hF)
    exact (hplain c).resume (fun m _ => .refuseEmpty m) .failed
  | many h ih =>
    intro c
    rw [ending_many]
    have hrepeated := (ih (hF.part List.mem_cons_self)).repeated (shortens_or_permitted hadvances rfl h hF)
    exact (hrepeated _ σ.budget c).resume (fun m _ => .done _) .failed
  | many1 h ih =>
    intro c
    rw [ending_many1]
    have hrepeated := (ih (hF.part List.mem_cons_self)).repeated (shortens_or_permitted hadvances rfl h hF)
    refine (hrepeated _ σ.budget c).resume (fun m _ => ?_) .failed
    split
    · exact .failed _
    · exact .done _
  -- all others hand on what their parts raise
  | map f _ ih =>
    intro c
    rw [ending_map]
    refine (ih (hF.part List.mem_cons_self) c).resume (fun m _ => ?_) .failed
    cases hf : f m.value with
    | error fault => exact .raised (hF.self (.refused ⟨m.value, hf⟩))
    | ok value => exact .done _
  | andThen _ _ ihf ihs =>
    intro c
    rw [ending_andThen]
    refine (ihf (hF.part List.mem_cons_self) c).resume (fun m _ => ?_) .failed
    exact ihs (hF.part (by simp [parts])) m.rest
  | before _ _ ihf ihs =>
    intro c
    rw [ending_before]
    refine (ihf (hF.part List.mem_cons_self) c).resume (fun m _ => ?_) .failed
    exact (ihs (hF.part (by simp [parts])) m.rest).resume (fun n _ => .done _) .failed
  | separated _ _ _ ihl ihs ihr =>
    intro c
    rw [ending_separated]
    refine (ihl (hF.part List.mem_cons_self) c).resume (fun first _ => ?_) .failed
    refine (ihs (hF.part (by simp [parts])) first.rest).resume (fun between _ => ?_) .failed
    exact (ihr (hF.part (by simp [parts])) between.rest).resume (fun second _ => .done _) .failed
  | optional _ ih =>
    intro c
    rw [ending_optional]
    exact (ih (hF.part List.mem_cons_self) c).resume (fun m _ => .done m) fun _ => .done _
  | notFollowedBy _ ih =>
    intro c
    rw [ending_notFollowedBy]
    exact (ih (hF.part List.mem_cons_self) c).resume (fun m _ => .failed _) fun _ => .done _
  | lookahead _ ih =>
    intro c
    rw [ending_lookahead]
    exact (ih (hF.part List.mem_cons_self) c).resume (fun m _ => .done _) .failed
  | firstOf _ ih => exact raisesOnly_firstOf fun g hg => ih g hg (hF.part hg)
  | whole _ ih =>
    intro c
    rw [ending_whole]
    refine (ih (hF.part List.mem_cons_self) c).resume (fun m _ => ?_) .failed
    split
    · exact .done m
    · exact .failed _
  | traced label _ ih =>
    intro c
    rw [ending_traced]
    exact ih (hF.part List.mem_cons_self) c
  | rule r => exact hcall r hF
  | leaf hp => exact hp.elim

end Grammar

namespace Rulebook

variable {book : Rulebook} {tracing : Bool} {F : Fault → Prop} {g : Grammar} {c : Cursor}

/-- Rules raise what their definitions raise, and that they have none. The induction is on the depth of the calls. -/
theorem call_raisesOnly (hbook : book.IsLibrary) (tracing : Bool) (depth : Nat) :
    ∀ r, book.Permits F (.rule r) → (book.call tracing depth r).RaisesOnly F := by
  induction depth with
  | zero => exact fun r _ c => .unfinished
  | succ depth ih =>
    intro r hF
    cases hfind : book.find? r with
    | none =>
      rw [call_of_none book tracing hfind]
      exact fun c => .raised (hF.self (.undefined hfind))
    | some d =>
      rw [call_of_some book tracing hfind]
      have hadvances := call_onlyAdvances hbook.over tracing depth
      exact Grammar.parser_raisesOnly hadvances ih (hbook r d hfind) (hF.definition hfind)

/-- **Every fault has a place**: something that the grammar reaches may raise it. -/
theorem mayRaise_of_ends (hbook : book.IsLibrary) (hg : g.IsLibrary) {fault : Fault}
    (h : book.Ends tracing g c (.raised fault)) : ∃ k, book.Reaches g k ∧ book.MayRaise k fault := by
  obtain ⟨fuel, hfuel⟩ := h.exists_fuel
  let F : Fault → Prop := fun fault => ∃ k, book.Reaches g k ∧ book.MayRaise k fault
  have hF : book.Permits F g := fun k fault hk hfault => ⟨k, hk, hfault⟩
  have hadvances := call_onlyAdvances hbook.over tracing fuel
  have honly : (book.parser tracing fuel g).RaisesOnly F :=
    Grammar.parser_raisesOnly hadvances (call_raisesOnly hbook tracing fuel) hg hF
  exact honly c fault hfuel

/-- **Where only consuming grammars are repeated, no repetition is stuck.** A match of a consuming grammar leaves a shorter
window, and so the guard lets every step of such a repetition pass: a fault of the guard's kind can then only be one
that a test or a function of the caller raises itself. -/
theorem consuming_never_stuck (hbook : book.IsLibrary) (hg : g.IsLibrary) (tracing : Bool) (c : Cursor) :
    (g.consuming = true → ∀ m, book.Ends tracing g c (.done m) → m.rest.length < c.length) ∧
      ((∀ h, book.Reaches g h → ∀ name inner, h.repetition? = some (name, inner) → inner.consuming = true) →
        ∀ name, book.Ends tracing g c (.raised (.noProgress name)) →
          ∃ h, book.Reaches g h ∧ h.Refuses (.noProgress name)) := by
  refine ⟨fun hconsuming m hm => ?_, fun hrepeated name hraised => ?_⟩
  · have hshortens := Ends.shortens hbook hg hm
    rw [hconsuming] at hshortens
    exact hshortens
  · obtain ⟨k, hk, hmay⟩ := mayRaise_of_ends hbook hg hraised
    cases hmay with
    | refused hrefuses => exact ⟨k, hk, hrefuses⟩
    | stuck hrepetition hnot =>
      rw [hrepeated k hk _ _ hrepetition] at hnot
      cases hnot

/-- What holds of every grammar of these kinds holds everywhere in the definition of `parens`. -/
theorem everywhere_parens {N : Grammar → Prop} (hbyte : ∀ b, N (.byte b)) (hrule : N (.rule group))
    (hoptional : ∀ inner, N (.optional inner)) (hbefore : ∀ first second, N (.before first second))
    (handThen : ∀ first second, N (.andThen first second)) (r : Rule) (d : Grammar) (h : parens.find? r = some d) :
    d.Everywhere N := by
  obtain rfl : d = _ := congrArg Prod.snd (List.mem_singleton.1 (mem_definitions_of_find? h))
  have hrule' : (Grammar.rule group).Everywhere N := ⟨hrule, by simp [Grammar.parts]⟩
  have hbyte' : ∀ b, (Grammar.byte b).Everywhere N := fun b => ⟨hbyte b, by simp [Grammar.parts]⟩
  have hoptional' : (Grammar.optional (.rule group)).Everywhere N := ⟨hoptional _, by simp [Grammar.parts, hrule']⟩
  have hbefore' : (Grammar.before (.optional (.rule group)) (.byte 0x29)).Everywhere N :=
    ⟨hbefore _ _, by simp [Grammar.parts, hoptional', hbyte']⟩
  exact ⟨handThen _ _, by simp [Grammar.parts, hbyte', hbefore']⟩

/-- Groups with a comma behind each, in front of a group that has none. -/
theorem consuming_never_stuck_parens :
    let item : Grammar := .before (.rule group) (.byte 0x2c)
    let g : Grammar := .many1 item
    let c : Cursor := ⟨⟨#[0x28, 0x28, 0x29, 0x29, 0x2c, 0x28, 0x29, 0x2c, 0x28, 0x29]⟩, 0, 10, by decide, by decide⟩
    parens.IsLibrary ∧ g.IsLibrary ∧ g.consuming = true ∧
      (∀ h, parens.Reaches g h → ∀ name inner, h.repetition? = some (name, inner) → inner.consuming = true) ∧
      (∃ m, parens.Ends false g c (.done m) ∧ m.rest.length < c.length) ∧
      ∀ name, parens.Ends false g c (.raised (.noProgress name)) →
        ∃ h, parens.Reaches g h ∧ h.Refuses (.noProgress name) := by
  intro item g c
  have hg : g.IsLibrary := .many1 (.before (.rule group) (.byte 0x2c))
  have hrepeated : ∀ h, parens.Reaches g h → ∀ name inner, h.repetition? = some (name, inner) →
      inner.consuming = true := by
    let N : Grammar → Prop := fun h => ∀ name inner, h.repetition? = some (name, inner) → inner.consuming = true
    have hparens : ∀ r d, parens.find? r = some d → d.Everywhere N :=
      everywhere_parens (fun _ => nofun) nofun (fun _ => nofun) (fun _ _ => nofun) fun _ _ => nofun
    have hitem : item.Everywhere N := by
      refine ⟨nofun, List.forall_mem_cons.2 ⟨⟨nofun, nofun⟩, List.forall_mem_cons.2 ⟨⟨nofun, nofun⟩, nofun⟩⟩⟩
    have hself : N g := by
      rintro name inner hrepetition
      cases hrepetition
      rfl
    exact fun h hreaches => hreaches.of_everywhere hparens ⟨hself, List.forall_mem_singleton.2 hitem⟩
  obtain ⟨m, hm⟩ : ∃ m, (parens.parser false 4 g c).ending = .done m := by decide +kernel
  have hends : parens.Ends false g c (.done m) := ends_of_ending hm nofun
  have hboth := consuming_never_stuck isLibrary_parens hg false c
  exact ⟨isLibrary_parens, hg, rfl, hrepeated, ⟨m, hends, hboth.1 rfl m hends⟩, hboth.2 hrepeated⟩

end Rulebook

end Bytewise
