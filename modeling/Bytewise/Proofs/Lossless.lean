/-
# Bytewise.Proofs.Lossless — what was consumed can be read off the value.

A value and the rest of the input are put together on separate paths: the value from slices, bytes and literals, the
rest from moves of the cursor. For grammars that keep all they read (`Grammar.Keeps`) the two agree. The bytes of the
value, in order, followed by those of the rest are the bytes of the window (`Rulebook.flat_append_window`), so nothing
is lost, doubled, moved or made up.

Outside these grammars it fails by design: a sequence drops the value of one of its parts, a lookahead gives back what
it read, and a function may return anything. Inside a scan and under a negative lookahead they may stand all the same,
because there only what was consumed counts.
-/
import Bytewise.Proofs.Consuming

namespace Bytewise

/-! ## The bytes of a value -/

namespace Value

mutual

/-- **`flat? v`** — the bytes that `v` holds, in order: bytes are themselves, a number is the byte that it counts, nothing
is no bytes, and a list is one item after the other. All other values hold no bytes. -/
def flat? : Value → Option (List UInt8)
  | .none => some []
  | .bytes bs => some bs
  | .int n => if 0 ≤ n ∧ n ≤ 255 then some [UInt8.ofNat n.toNat] else Option.none
  | .list items => flatAll? items
  | .bool _ | .text _ | .pair _ _ => Option.none

/-- The bytes that the values of a list hold, one after the other. -/
def flatAll? : List Value → Option (List UInt8)
  | [] => some []
  | v :: vs => v.flat?.bind fun front => (flatAll? vs).map (front ++ ·)

end

theorem flat?_ofByte (b : UInt8) : (ofByte b).flat? = some [b] := by
  have hle : b.toNat ≤ 255 := Nat.le_of_lt_succ b.toNat_lt
  have hin : 0 ≤ (b.toNat : Int) ∧ (b.toNat : Int) ≤ 255 := by omega
  rw [ofByte, flat?, if_pos hin, Int.toNat_natCast, UInt8.ofNat_toNat]

theorem flatAll?_cons {v : Value} {vs : List Value} {front back : List UInt8} (hv : v.flat? = some front)
    (hvs : flatAll? vs = some back) : flatAll? (v :: vs) = some (front ++ back) := by
  rw [flatAll?, hv, hvs, Option.bind_some, Option.map_some]

end Value

/-! ## Grammars that keep what they read -/

/-- **`g.Keeps kept`** — everything that `g` consumes goes into its value, if that is so for the rules in `kept`. -/
inductive Grammar.Keeps (kept : Rule → Prop) : Grammar → Prop
  | take (count : Nat) : Keeps kept (.take count)
  | byte (expected : UInt8) : Keeps kept (.byte expected)
  | literal (expected : List UInt8) : Keeps kept (.literal expected)
  | satisfy (test : Predicate) : Keeps kept (.satisfy test)
  | upToFirst (test : Predicate) : Keeps kept (.upToFirst test)
  | upToFirst1 (test : Predicate) : Keeps kept (.upToFirst1 test)
  | upToLast (test : Predicate) : Keeps kept (.upToLast test)
  | upToLast1 (test : Predicate) : Keeps kept (.upToLast1 test)
  | span {inner : Grammar} : inner.IsLibrary → Keeps kept (.span inner)
  | span1 {inner : Grammar} : inner.IsLibrary → Keeps kept (.span1 inner)
  | notFollowedBy {inner : Grammar} : inner.IsLibrary → Keeps kept (.notFollowedBy inner)
  | endOfInput : Keeps kept .endOfInput
  | moreInput : Keeps kept .moreInput
  | optional {inner : Grammar} : Keeps kept inner → Keeps kept (.optional inner)
  | many1 {inner : Grammar} : Keeps kept inner → Keeps kept (.many1 inner)
  | many {inner : Grammar} : Keeps kept inner → Keeps kept (.many inner)
  | firstOf {alternatives : List Grammar} :
      (∀ g ∈ alternatives, Keeps kept g) → Keeps kept (.firstOf alternatives)
  | whole {inner : Grammar} : Keeps kept inner → Keeps kept (.whole inner)
  | traced (label : String) {inner : Grammar} : Keeps kept inner → Keeps kept (.traced label inner)
  | rule {r : Rule} : kept r → Keeps kept (.rule r)

/-! ## Matches that cover their window -/

/-- **`m.Covers c`** — the bytes of the value and those of the rest make up the window of `c`. -/
def Match.Covers (c : Cursor) (m : Match Value) : Prop :=
  ∃ front, m.value.flat? = some front ∧ front ++ m.rest.window = c.window

/-- **`p.Covers`** — every match of `p` covers its window. -/
def Parser.Covers (p : Parser Value) : Prop :=
  ∀ c, (p c).ending.Holds (Match.Covers c)

namespace Match

variable {c : Cursor} {m : Match Value}

/-- Where nothing is produced, nothing may be consumed. -/
theorem covers_stay (c : Cursor) : Match.Covers c ⟨.none, c⟩ :=
  ⟨[], rfl, rfl⟩

theorem covers_skip {value : Value} {front back : List UInt8} (hvalue : value.flat? = some front)
    (hc : c.window = front ++ back) : Match.Covers c ⟨value, c.skip front.length⟩ := by
  refine ⟨front, hvalue, ?_⟩
  show front ++ (c.skip front.length).window = c.window
  rw [Cursor.window_skip, hc, List.drop_left]

/-- A slice covers the window: it ends where the rest starts. -/
theorem IsSlice.covers (h : m.IsSlice c) : m.Covers c := by
  refine ⟨c.window.take (m.rest.pos - c.pos), ?_, ?_⟩
  · rw [h.value_eq, Value.flat?]
  · rw [h.rest_isRestOf.window_eq, List.take_append_drop]

/-- A match that is not refused is the match that it was. -/
theorem Covers.refuseEmpty (h : m.Covers c) : m.refuseEmpty.Holds (Match.Covers c) := by
  unfold Match.refuseEmpty
  split
  · exact .failed _
  · exact .done h

end Match

/-! ## One layer of combinators -/

/-- **The values of a repetition,** one after the other, cover what its steps consumed. -/
theorem Parser.Covers.repeated {p : Parser Value} (hp : p.Covers) (goOn : Cursor → Bool) (repetition : String)
    (budget : Nat) (c : Cursor) :
    (Parser.repeated goOn repetition budget p c).ending.Holds fun m =>
      ∃ front, Value.flatAll? m.value = some front ∧ front ++ m.rest.window = c.window := by
  induction budget generalizing c with
  | zero => exact .unfinished
  | succ budget ih =>
    have hstop : (Ending.done ⟨[], c⟩ : Ending (Match (List Value))).Holds fun m =>
        ∃ front, Value.flatAll? m.value = some front ∧ front ++ m.rest.window = c.window :=
      .done ⟨[], rfl, rfl⟩
    rw [ending_repeated_succ]
    split
    · refine (hp c).resume (fun m hm => ?_) fun _ => hstop
      obtain ⟨front, hfront, hsplit⟩ := hm
      split
      · exact .raised _
      · -- the later steps cover what this one has left
        refine (ih m.rest).resume (fun n hn => ?_) .failed
        obtain ⟨back, hback, hsplit'⟩ := hn
        refine .done ⟨front ++ back, Value.flatAll?_cons hfront hback, ?_⟩
        rw [List.append_assoc, hsplit', hsplit]
    · exact hstop

namespace Grammar

variable {σ : Setting}

theorem covers_satisfy (test : Predicate) : ((Grammar.satisfy test).parser σ).Covers := by
  intro c
  rw [ending_satisfy]
  cases hw : c.window with
  | nil => exact .failed _
  | cons b back =>
    dsimp only
    split
    · exact .raised _
    · have hsplit : c.window = [b] ++ back := hw.trans List.singleton_append.symm
      have hcovers := Match.covers_skip (Value.flat?_ofByte b) hsplit
      rw [List.length_singleton] at hcovers
      exact .done hcovers
    · exact .failed _

theorem covers_firstOf : ∀ {gs : List Grammar}, (∀ g ∈ gs, (g.parser σ).Covers) →
    ((Grammar.firstOf gs).parser σ).Covers
  | [], _ => fun _ => .failed _
  | g :: gs, h => by
    obtain ⟨hg, hgs⟩ := List.forall_mem_cons.1 h
    intro c
    rw [ending_firstOf_cons]
    exact (hg c).resume (fun m hm => .done hm) fun _ => covers_firstOf hgs c

/-- **One layer of combinators** covers the window if the rules in `kept` do. What is scanned or only looked at has to
advance and nothing more. -/
theorem parser_covers {kept : Rule → Prop} (hadvances : ∀ r, (σ.call r).OnlyAdvances)
    (hcall : ∀ r, kept r → (σ.call r).Covers) {g : Grammar} (hg : g.Keeps kept) : (g.parser σ).Covers := by
  have honly : ∀ {inner : Grammar}, inner.IsLibrary → (inner.parser σ).OnlyAdvances :=
    fun h => parser_onlyAdvances hadvances h.over
  induction hg with
  | take count =>
    intro c
    rw [ending_take]
    split
    · exact .failed _
    · split
      · exact .failed _
      · exact .done (Match.isSlice_skip c count).covers
  | literal expected =>
    intro c
    rw [ending_literal]
    split
    · exact .failed _
    · split
      · exact .failed _
      · split
        · -- the value is the literal, and the window begins with it
          rename_i hstarts
          obtain ⟨back, hback⟩ := (c.startsWith_iff expected).1 hstarts
          exact .done (Match.covers_skip rfl hback.symm)
        · exact .failed _
  | byte expected =>
    rw [parser_byte]
    exact covers_satisfy _
  | satisfy test => exact covers_satisfy test
  -- the value of a scan is a slice of the window
  | upToFirst test => exact fun c => (isSlice_upToFirst test c).mono fun m hm => hm.covers
  | upToLast test => exact fun c => (isSlice_upToLast test c).mono fun m hm => hm.covers
  | span h => exact fun c => (isSlice_span (honly h) c).mono fun m hm => hm.covers
  | upToFirst1 test =>
    intro c
    rw [ending_upToFirst1]
    exact (isSlice_upToFirst test c).resume (fun m hm => hm.covers.refuseEmpty) .failed
  | upToLast1 test =>
    intro c
    rw [ending_upToLast1]
    exact (isSlice_upToLast test c).resume (fun m hm => hm.covers.refuseEmpty) .failed
  | span1 h =>
    intro c
    rw [ending_span1]
    exact (isSlice_span (honly h) c).resume (fun m hm => hm.covers.refuseEmpty) .failed
  -- what gives input back has no value to show for it
  | @notFollowedBy inner h =>
    intro c
    have hany : (inner.parser σ c).ending.Holds fun _ => True := fun _ _ => trivial
    rw [ending_notFollowedBy]
    exact hany.resume (fun _ _ => .failed _) fun _ => .done (Match.covers_stay c)
  | endOfInput =>
    intro c
    rw [ending_endOfInput]
    split
    · exact .done (Match.covers_stay c)
    · exact .failed _
  | moreInput =>
    intro c
    rw [ending_moreInput]
    split
    · exact .failed _
    · exact .done (Match.covers_stay c)
  | optional _ ih =>
    intro c
    rw [ending_optional]
    exact (ih c).resume (fun m hm => .done hm) fun _ => .done (Match.covers_stay c)
  | many _ ih =>
    intro c
    rw [ending_many]
    exact (ih.repeated _ _ σ.budget c).resume (fun m hm => .done hm) .failed
  | many1 _ ih =>
    intro c
    rw [ending_many1]
    refine (ih.repeated _ _ σ.budget c).resume (fun m hm => ?_) .failed
    split
    · exact .failed _
    · exact .done hm
  | firstOf _ ih => exact covers_firstOf ih
  | whole _ ih =>
    intro c
    rw [ending_whole]
    refine (ih c).resume (fun m hm => ?_) .failed
    split
    · exact .done hm
    · exact .failed _
  | traced label _ ih =>
    intro c
    rw [ending_traced]
    exact ih c
  | rule hr => exact hcall _ hr

end Grammar

/-! ## Rules -/

namespace Rulebook

variable {book : Rulebook} {kept : Rule → Prop}

/-- Kept rules cover their windows if their definitions keep what they read. The induction is on the depth of the
calls; rules that are not kept only have to advance. -/
theorem call_covers (hbook : book.IsLibrary) (hkept : ∀ r, kept r → ∀ d, book.find? r = some d → d.Keeps kept)
    (tracing : Bool) (depth : Nat) : ∀ r, kept r → (book.call tracing depth r).Covers := by
  induction depth with
  | zero => exact fun r _ c => .unfinished
  | succ depth ih =>
    intro r hr
    cases hfind : book.find? r with
    | none =>
      rw [call_of_none book tracing hfind]
      exact fun c => .raised _
    | some d =>
      rw [call_of_some book tracing hfind]
      have hadvances := call_onlyAdvances hbook.over tracing depth
      exact Grammar.parser_covers hadvances ih (hkept r hr d hfind)

/-- **Parsing is lossless** for grammars that keep what they read, over rules that do so. The bytes that the value holds,
followed by those of the rest, are the bytes of the window. -/
theorem flat_append_window (hbook : book.IsLibrary)
    (hkept : ∀ r, kept r → ∀ d, book.find? r = some d → d.Keeps kept) {g : Grammar} (hg : g.Keeps kept)
    {tracing : Bool} {fuel : Nat} {c : Cursor} {m : Match Value}
    (h : (book.parser tracing fuel g c).ending = .done m) :
    ∃ front, m.value.flat? = some front ∧ front ++ m.rest.window = c.window := by
  have hadvances := call_onlyAdvances hbook.over tracing fuel
  have hcall := call_covers hbook hkept tracing fuel
  exact Grammar.parser_covers (σ := book.setting tracing fuel) hadvances hcall hg c m h

/-- A rule that takes a run of brackets or else one byte. -/
def chunk : Rule := ⟨1, "chunk"⟩

/-- `parens` and `chunk`, of which only `chunk` keeps what it reads. -/
def chunks : Rulebook where
  next := 2
  definitions := (chunk, .firstOf [.span1 (.rule group), .take 1]) :: parens.definitions

/-- Chunks in any number, one of them with a bracket grammar inside, and the test for the end behind them. -/
theorem flat_append_window_chunks :
    let kept : Rule → Prop := fun r => r = chunk
    let g : Grammar := .whole (.many (.rule chunk))
    let m : Match Value := ⟨.list [.bytes [0x28, 0x28, 0x29, 0x29], .bytes [0x62]], nested.skip 5⟩
    chunks.IsLibrary ∧ (∀ r, kept r → ∀ d, chunks.find? r = some d → d.Keeps kept) ∧ g.Keeps kept ∧
      (chunks.parser false 6 g nested).ending = .done m ∧
      ∃ front, m.value.flat? = some front ∧ front ++ m.rest.window = nested.window := by
  intro kept g m
  have hchunk : ∀ inner : Grammar, inner.IsLibrary → (Grammar.firstOf [.span1 inner, .take 1]).Keeps kept :=
    fun inner h => .firstOf (List.forall_mem_cons.2 ⟨.span1 h, List.forall_mem_singleton.2 (.take 1)⟩)
  have hbook : chunks.IsLibrary := by
    refine over_of_forall_mem (List.forall_mem_cons.2 ⟨?_, fun d hd => ?_⟩)
    · exact .firstOf (List.forall_mem_cons.2 ⟨.span1 (.rule group), List.forall_mem_singleton.2 (.take 1)⟩)
    · obtain rfl := List.mem_singleton.1 hd
      exact .andThen (.byte _) (.before (.optional (.rule _)) (.byte _))
  have hkept : ∀ r, kept r → ∀ d, chunks.find? r = some d → d.Keeps kept := by
    rintro r rfl d hd
    cases hd
    exact hchunk _ (.rule group)
  have hg : g.Keeps kept := .whole (.many (.rule rfl))
  have hm : (chunks.parser false 6 g nested).ending = .done m := by decide +kernel
  exact ⟨hbook, hkept, hg, hm, flat_append_window hbook hkept hg hm⟩

end Rulebook

end Bytewise
