/-
# Bytewise.Proofs.Nesting — brackets around brackets.

A group is an opening bracket, any number of groups and a closing bracket, and its value is its depth. The grammar calls
itself inside a greedy repetition, without a bound on depth or width. It accepts the renderings of ordered trees and
nothing else, and the value is the height of the tree (`Rulebook.parse_group`).

The proof is about derivations. Every rendering is derived, whatever stands behind it, because the repetition stops at
the closing bracket and not before. And every list of bytes either begins with a rendering or is refused
(`group_or_fail`), so there is a verdict for all of them and no third way to end.
-/
import Bytewise.Proofs.Entry
import Bytewise.Value.Transform

namespace Bytewise

/-! ## Trees and their renderings -/

/-- **`Nest`** — an ordered tree: a group of groups. -/
inductive Nest where
  | node (children : List Nest)

namespace Nest

mutual

/-- **`render t`** — an opening bracket, the renderings of the children in order, and a closing bracket. -/
def render : Nest → List UInt8
  | .node children => 0x28 :: (renderAll children ++ [0x29])

/-- The renderings of several trees, one after the other. -/
def renderAll : List Nest → List UInt8
  | [] => []
  | t :: ts => t.render ++ renderAll ts

end

mutual

/-- **`height t`** — one more than the greatest height of a child. -/
def height : Nest → Nat
  | .node children => 1 + heightAll children

/-- The greatest height of several trees, and zero for none. -/
def heightAll : List Nest → Nat
  | [] => 0
  | t :: ts => max t.height (heightAll ts)

end

/-- The height as the value of a group. -/
def depth (t : Nest) : Value :=
  .int t.height

/-- What stands behind a rendering is shorter. -/
theorem length_lt_render_append (t : Nest) (rest : List UInt8) : rest.length < (t.render ++ rest).length := by
  cases t with
  | node children =>
    rw [render, List.cons_append, List.length_cons, List.length_append]
    omega

/-- The depths of groups are integers. -/
theorem integers?_depth (ts : List Nest) :
    Transform.integers? (ts.map depth) = some (ts.map fun t => (t.height : Int)) := by
  induction ts with
  | nil => rfl
  | cons t ts ih => rw [List.map_cons, List.map_cons, depth, Transform.integers?, ih, Option.map_some]

theorem max?_height (ts : List Nest) : (ts.map fun t => (t.height : Int)).max?.getD 0 = heightAll ts := by
  induction ts with
  | nil => rfl
  | cons t ts ih =>
    rw [List.map_cons, List.max?_cons, Option.getD_some, heightAll]
    cases hmax : (ts.map fun t => (t.height : Int)).max? with
    | none =>
      rw [hmax, Option.getD_none] at ih
      simp only [Option.elim_none]
      omega
    | some greatest =>
      rw [hmax, Option.getD_some] at ih
      simp only [Option.elim_some]
      omega

/-- **From the depths of the children the transform makes the depth of the group.** -/
theorem depth_apply (ts : List Nest) :
    Transform.depth.apply (.list (ts.map depth)) = .ok (Nest.node ts).depth := by
  rw [Transform.apply, Transform.eval?, integers?_depth, Option.map_some, max?_height, depth, height, Int.natCast_add]
  rfl

end Nest

namespace Rulebook

/-! ## The grammar -/

/-- Groups in a group, where the value of a group is its depth. -/
def nests : Rulebook where
  next := 1
  definitions :=
    [(group, .map Transform.depth.apply
      (.andThen (.byte 0x28) (.before (.many (.rule group)) (.byte 0x29))))]

/-- The rule is declared and then defined. -/
example : (Rulebook.declare {} "group").1 = group ∧
    ((Rulebook.declare {} "group").2.define group (.map Transform.depth.apply
      (.andThen (.byte 0x28) (.before (.many (.rule group)) (.byte 0x29))))) = .ok nests :=
  ⟨rfl, rfl⟩

/-- What the definition derives the rule derives. -/
theorem derives_group {w : List UInt8} {d : Verdict}
    (h : nests.Derives (.map Transform.depth.apply
      (.andThen (.byte 0x28) (.before (.many (.rule group)) (.byte 0x29)))) w d) :
    nests.Derives (.rule group) w d :=
  .rule rfl h

/-! ## Renderings are derived -/

/-- Groups behind an opening bracket and in front of a closing one are a group. -/
theorem derives_group_of_repeats {ts : List Nest} {w rest : List UInt8}
    (h : nests.Repeats false (.rule group) w (ts.map Nest.depth) (0x29 :: rest)) :
    nests.Derives (.rule group) (0x28 :: w) (.ok (Nest.node ts).depth rest) :=
  derives_group (.map (.andThen .byte (.before (.many h) .byte)) (Nest.depth_apply ts))

/-- A group is refused where it does not open. -/
theorem derives_group_other {b : UInt8} {rest : List UInt8} (hb : b ≠ 0x28) :
    nests.Derives (.rule group) (b :: rest) (.fail .wrongByte) :=
  derives_group (.map_fail (.andThen_fail (.byte_other hb)))

mutual

/-- **A rendering is a group,** whatever stands behind it. The recursion is on the tree. -/
theorem derives_render : ∀ (t : Nest) (rest : List UInt8),
    nests.Derives (.rule group) (t.render ++ rest) (.ok t.depth rest)
  | .node children, rest => by
    -- no group opens at the bracket that closes this one, so the repetition takes all children and no more
    have hstop : nests.Derives (.rule group) (0x29 :: rest) (.fail .wrongByte) := derives_group_other (by decide)
    have hchildren := repeats_renderAll children hstop
    rw [Nest.render, List.cons_append, List.append_assoc, List.singleton_append]
    exact derives_group_of_repeats hchildren

/-- Renderings one after the other are repeated groups, if no further group stands behind them. -/
theorem repeats_renderAll : ∀ (ts : List Nest) {rest : List UInt8} {reason : Reason},
    nests.Derives (.rule group) rest (.fail reason) →
      nests.Repeats false (.rule group) (Nest.renderAll ts ++ rest) (ts.map Nest.depth) rest
  | [], rest, reason, hstop => .stop hstop
  | t :: ts, rest, reason, hstop => by
    rw [Nest.renderAll, List.append_assoc, List.map_cons]
    exact .step (derives_render t _) (t.length_lt_render_append _) (repeats_renderAll ts hstop)

end

/-- Of a whole rendering nothing is left. -/
theorem derives_of_render_eq {t : Nest} {w : List UInt8} (h : t.render = w) :
    nests.Derives (.rule group) w (.ok t.depth []) := by
  have hderives := derives_render t []
  rwa [List.append_nil, h] at hderives

/-! ## Everything else is refused -/

/-- **`GroupOrFail w`** — `w` begins with a rendering, or no group is derived from it. -/
def GroupOrFail (w : List UInt8) : Prop :=
  (∃ (t : Nest) (rest : List UInt8), w = t.render ++ rest) ∨
    ∃ reason, nests.Derives (.rule group) w (.fail reason)

/-- If shorter lists begin with a rendering or are refused, then a list can be cut into renderings and a part that is
refused. -/
theorem exists_renderAll {n : Nat} (hless : ∀ w : List UInt8, w.length < n → GroupOrFail w) :
    ∀ w : List UInt8, w.length < n → ∃ (ts : List Nest) (rest : List UInt8) (reason : Reason),
      w = Nest.renderAll ts ++ rest ∧ nests.Derives (.rule group) rest (.fail reason) := by
  intro w
  induction hlen : w.length using Nat.strong_induction_on generalizing w with
  | _ len ih =>
    subst hlen
    intro hw
    rcases hless w hw with ⟨t, rest, rfl⟩ | ⟨reason, hfail⟩
    · have hshorter := t.length_lt_render_append rest
      obtain ⟨ts, rest', reason, rfl, hfail⟩ := ih rest.length hshorter rest rfl (Nat.lt_trans hshorter hw)
      exact ⟨t :: ts, rest', reason, by rw [Nest.renderAll, List.append_assoc], hfail⟩
    · exact ⟨[], w, reason, rfl, hfail⟩

/-- **Every list begins with a rendering or is refused.** The induction is on its length: behind an opening bracket
stand children and a part that is refused, and the first byte of that part decides. -/
theorem group_or_fail (w : List UInt8) : GroupOrFail w := by
  induction hlen : w.length using Nat.strong_induction_on generalizing w with
  | _ len ih =>
    subst hlen
    match w with
    | [] => exact Or.inr ⟨_, derives_group (.map_fail (.andThen_fail .byte_empty))⟩
    | b :: w =>
      by_cases hb : b = 0x28
      · subst hb
        have hless : ∀ w' : List UInt8, w'.length < (0x28 :: w).length → GroupOrFail w' :=
          fun w' hw' => ih w'.length hw' w' rfl
        obtain ⟨ts, rest, reason, rfl, hfail⟩ := exists_renderAll hless w (Nat.lt_succ_self _)
        have hchildren := repeats_renderAll ts hfail
        -- without the closing bracket the group fails, although all its children matched
        have hopen : ∀ {reason : Reason}, nests.Derives (.byte 0x29) rest (.fail reason) →
            nests.Derives (.rule group) (0x28 :: (Nest.renderAll ts ++ rest)) (.fail reason) :=
          fun h => derives_group (.map_fail (.andThen .byte (.before_fail_second (.many hchildren) h)))
        match rest with
        | [] => exact Or.inr ⟨_, hopen .byte_empty⟩
        | b :: rest =>
          by_cases hb : b = 0x29
          · subst hb
            refine Or.inl ⟨.node ts, rest, ?_⟩
            rw [Nest.render, List.cons_append, List.append_assoc, List.singleton_append]
          · exact Or.inr ⟨_, hopen (.byte_other hb)⟩
      · exact Or.inr ⟨_, derives_group_other hb⟩

/-! ## The parse -/

/-- What the parse of a window by `group` ends with: the height of the tree that the window renders, or the report of a
failure if it renders none. -/
theorem parse_group_cases (levels : Levels) (c : Cursor) :
    (∃ t : Nest, t.render = c.window ∧ nests.Parses levels (some 0) (.rule group) c (.done t.depth)) ∨
      (∀ t : Nest, t.render ≠ c.window) ∧
        ∃ reason, nests.Parses levels (some 0) (.rule group) c (.raised (.parseFailed reason)) := by
  have hsize : Parser.checkSize (some 0) c = .ok () := Parser.checkSize_of_nonpos le_rfl c
  rcases group_or_fail c.window with ⟨t, rest, hw⟩ | ⟨reason, hfail⟩
  · have hderives : nests.Derives (.rule group) c.window (.ok t.depth rest) := by
      rw [hw]
      exact derives_render t rest
    cases rest with
    | nil => exact Or.inl ⟨t, by rw [hw, List.append_nil], parses_of_derives hsize hderives⟩
    | cons b rest =>
      -- a window that is a rendering has no verdict that leaves something
      refine Or.inr ⟨fun t' ht' => ?_, _, parses_of_derives_more hsize hderives⟩
      have hsame := Derives.unique hderives (derives_of_render_eq ht')
      injection hsame with _ hrest
      exact List.cons_ne_nil b rest hrest
  · refine Or.inr ⟨fun t ht => ?_, reason, parses_of_derives_fail hsize hfail⟩
    cases Derives.unique hfail (derives_of_render_eq ht)

/-- **The group grammar accepts exactly its language.** Without a limit on the size, the parse of a window has the value
`v` if and only if the window is the rendering of a tree and `v` is its height. The parse of any other window reports a
failure, and the guard of the repetition never trips. -/
theorem parse_group (levels : Levels) (c : Cursor) :
    (∀ v, nests.Parses levels (some 0) (.rule group) c (.done v) ↔
      ∃ t : Nest, t.render = c.window ∧ v = .int t.height) ∧
    ((∀ t : Nest, t.render ≠ c.window) →
      ∃ reason, nests.Parses levels (some 0) (.rule group) c (.raised (.parseFailed reason))) ∧
    ∀ name, ¬ nests.Parses levels (some 0) (.rule group) c (.raised (.noProgress name)) := by
  have hsize : Parser.checkSize (some 0) c = .ok () := Parser.checkSize_of_nonpos le_rfl c
  refine ⟨fun v => ⟨fun hv => ?_, ?_⟩, fun hnone => ?_, fun name hstuck => ?_⟩
  · rcases parse_group_cases levels c with ⟨t, ht, hparse⟩ | ⟨-, reason, hparse⟩
    · cases Ending.Settles.unique hv hparse
      exact ⟨t, ht, rfl⟩
    · cases Ending.Settles.unique hv hparse
  · rintro ⟨t, ht, rfl⟩
    exact parses_of_derives hsize (derives_of_render_eq ht)
  · rcases parse_group_cases levels c with ⟨t, ht, -⟩ | ⟨-, hparse⟩
    · exact absurd ht (hnone t)
    · exact hparse
  · rcases parse_group_cases levels c with ⟨t, -, hparse⟩ | ⟨-, reason, hparse⟩
    · cases Ending.Settles.unique hstuck hparse
    · cases Ending.Settles.unique hstuck hparse

end Rulebook

end Bytewise
