/-
# Bytewise.Cursor.Search — searches of the window as searches of a list.

`Cursor.findFirst` and `Cursor.findLast` walk the source by index. Here they are shown to be the obvious searches
of the window's bytes: from the front, and from the back of the list. A test that is a fault ends either
search at the byte it is met on.
-/
import Bytewise.Cursor.Lemmas

namespace Bytewise

/-- **`firstIndex test bs`** — the index of the first byte that passes the test, tested from the front. -/
def firstIndex (test : UInt8 → Except Fault Bool) : List UInt8 → Except Fault (Option Nat)
  | [] => .ok none
  | b :: bs =>
    match test b with
    | .error fault => .error fault
    | .ok true => .ok (some 0)
    | .ok false => (firstIndex test bs).map (Option.map (· + 1))

/-- **`lastIndex test bs`** — the index of the last byte that passes the test, tested from the back. -/
def lastIndex (test : UInt8 → Except Fault Bool) (bs : List UInt8) : Except Fault (Option Nat) :=
  (firstIndex test bs.reverse).map (Option.map (bs.length - 1 - ·))

/-! ## What the searches find -/

section

variable {test : UInt8 → Except Fault Bool} {bs : List UInt8}

/-- Nothing is found where every byte is answered with "no". -/
theorem firstIndex_eq_none_iff : firstIndex test bs = .ok none ↔ ∀ x ∈ bs, test x = .ok false := by
  induction bs with
  | nil => simp [firstIndex]
  | cons b bs ih =>
    rw [firstIndex, List.forall_mem_cons]
    cases hb : test b with
    | error fault => simp
    | ok answer =>
      cases answer with
      | true => simp
      | false =>
        simp only [true_and]
        rw [← ih]
        cases firstIndex test bs with
        | error fault => simp [Except.map]
        | ok index => cases index <;> simp [Except.map]

/-- **The search from the front splits the list** before the first byte that passes. -/
theorem firstIndex_eq_some_iff {i : Nat} :
    firstIndex test bs = .ok (some i) ↔
      ∃ front b back, bs = front ++ b :: back ∧ front.length = i ∧ (∀ x ∈ front, test x = .ok false) ∧
        test b = .ok true := by
  constructor
  · intro h
    induction bs generalizing i with
    | nil => cases h
    | cons b bs ih =>
      rw [firstIndex] at h
      cases hb : test b with
      | error fault =>
        rw [hb] at h
        cases h
      | ok answer =>
        rw [hb] at h
        cases answer with
        | true =>
          cases h
          exact ⟨[], b, bs, rfl, rfl, nofun, hb⟩
        | false =>
          cases hrest : firstIndex test bs with
          | error fault => simp [hrest, Except.map] at h
          | ok index =>
            cases index with
            | none => simp [hrest, Except.map] at h
            | some j =>
              obtain ⟨front, b', back, hsplit, hlen, hfront, hb'⟩ := ih hrest
              have hi : j + 1 = i := by simpa [hrest, Except.map] using h
              refine ⟨b :: front, b', back, ?_, ?_, ?_, hb'⟩
              · rw [hsplit, List.cons_append]
              · rw [List.length_cons, hlen, hi]
              · exact List.forall_mem_cons.2 ⟨hb, hfront⟩
  · rintro ⟨front, b, back, rfl, rfl, hfront, hb⟩
    induction front with
    | nil => rw [List.nil_append, firstIndex, hb, List.length_nil]
    | cons x front ih =>
      obtain ⟨hx, hrest⟩ := List.forall_mem_cons.1 hfront
      rw [List.cons_append, firstIndex, hx]
      dsimp only
      rw [ih hrest]
      rfl

theorem lastIndex_eq_none_iff : lastIndex test bs = .ok none ↔ ∀ x ∈ bs, test x = .ok false := by
  have hreverse : (∀ x ∈ bs.reverse, test x = .ok false) ↔ ∀ x ∈ bs, test x = .ok false := by
    simp only [List.mem_reverse]
  rw [← hreverse, ← firstIndex_eq_none_iff, lastIndex]
  cases firstIndex test bs.reverse with
  | error fault => simp [Except.map]
  | ok index => cases index <;> simp [Except.map]

/-- **The search from the back splits the list** before the last byte that passes. -/
theorem lastIndex_eq_some_iff {i : Nat} :
    lastIndex test bs = .ok (some i) ↔
      ∃ front b back, bs = front ++ b :: back ∧ front.length = i ∧ test b = .ok true ∧
        ∀ x ∈ back, test x = .ok false := by
  constructor
  · intro h
    rw [lastIndex] at h
    cases hfound : firstIndex test bs.reverse with
    | error fault => simp [hfound, Except.map] at h
    | ok index =>
      cases index with
      | none => simp [hfound, Except.map] at h
      | some j =>
        obtain ⟨back, b, front, hsplit, hlen, hback, hb⟩ := firstIndex_eq_some_iff.1 hfound
        have hbs : bs = front.reverse ++ b :: back.reverse := by
          rw [← List.reverse_reverse bs, hsplit]
          simp
        have hi : bs.length - 1 - j = i := by simpa [hfound, Except.map] using h
        refine ⟨front.reverse, b, back.reverse, hbs, ?_, hb, ?_⟩
        · rw [← hi, hbs, ← hlen]
          simp only [List.length_append, List.length_cons, List.length_reverse]
          omega
        · intro x hx
          exact hback x (List.mem_reverse.1 hx)
  · rintro ⟨front, b, back, rfl, rfl, hb, hback⟩
    have hfound : firstIndex test (front ++ b :: back).reverse = .ok (some back.length) := by
      refine firstIndex_eq_some_iff.2 ⟨back.reverse, b, front.reverse, ?_, ?_, ?_, hb⟩
      · simp
      · exact List.length_reverse
      · intro x hx
        exact hback x (List.mem_reverse.1 hx)
    rw [lastIndex, hfound]
    simp only [Except.map, Option.map_some, List.length_append, List.length_cons]
    congr 2
    omega

/-- A search from the front that is a fault has met a byte that the test refuses. -/
theorem exists_of_firstIndex_eq_error {fault : Fault} (h : firstIndex test bs = .error fault) :
    ∃ b, test b = .error fault := by
  induction bs with
  | nil => cases h
  | cons b bs ih =>
    rw [firstIndex] at h
    cases hb : test b with
    | error fault' =>
      rw [hb] at h
      cases h
      exact ⟨b, hb⟩
    | ok answer =>
      rw [hb] at h
      cases answer with
      | true => cases h
      | false =>
        cases hrest : firstIndex test bs with
        | error fault' =>
          rw [hrest] at h
          cases h
          exact ih hrest
        | ok index => simp [hrest, Except.map] at h

/-- A search from the back that is a fault has met a byte that the test refuses. -/
theorem exists_of_lastIndex_eq_error {fault : Fault} (h : lastIndex test bs = .error fault) :
    ∃ b, test b = .error fault := by
  rw [lastIndex] at h
  cases hfound : firstIndex test bs.reverse with
  | error fault' =>
    rw [hfound] at h
    cases h
    exact exists_of_firstIndex_eq_error hfound
  | ok index => simp [hfound, Except.map] at h

end

namespace Cursor

/-- The walk from offset `k` searches what follows the first `k` bytes. -/
theorem findFrom_eq (c : Cursor) (test : UInt8 → Except Fault Bool) :
    ∀ (todo k : Nat), k + todo = c.length →
      c.findFrom test todo k = (firstIndex test (c.window.drop k)).map (Option.map (· + k))
  | 0, k, h => by
    have hnil : c.window.drop k = [] := by
      rw [List.drop_eq_nil_iff, length_window]
      omega
    rw [hnil]
    rfl
  | todo + 1, k, h => by
    have hk : k < c.window.length := by
      rw [length_window]
      omega
    rw [findFrom, byte?_eq, List.getElem?_eq_getElem hk, List.drop_eq_getElem_cons hk, firstIndex]
    dsimp only
    cases test c.window[k] with
    | error fault => rfl
    | ok answer =>
      cases answer with
      | true => simp [Except.map]
      | false =>
        simp only
        rw [findFrom_eq c test todo (k + 1) (by omega)]
        cases firstIndex test (c.window.drop (k + 1)) with
        | error fault => rfl
        | ok index =>
          cases index with
          | none => rfl
          | some i =>
            simp only [Except.map, Option.map_some]
            congr 2
            omega

/-- **The search from the front is the search of the window.** -/
theorem findFirst_eq (c : Cursor) (test : UInt8 → Except Fault Bool) :
    c.findFirst test = firstIndex test c.window := by
  rw [findFirst, findFrom_eq c test c.length 0 (Nat.zero_add _), List.drop_zero]
  cases firstIndex test c.window with
  | error fault => rfl
  | ok index => cases index <;> rfl

/-- The walk down from offset `k` searches the first `k` bytes from the back. -/
theorem findBelow_eq (c : Cursor) (test : UInt8 → Except Fault Bool) :
    ∀ (k : Nat), k ≤ c.length →
      c.findBelow test k =
        (firstIndex test (c.window.take k).reverse).map (Option.map (k - 1 - ·))
  | 0, _ => rfl
  | k + 1, h => by
    have hk : k < c.window.length := by
      rw [length_window]
      omega
    rw [findBelow, byte?_eq, List.getElem?_eq_getElem hk, List.take_succ_eq_append_getElem hk,
      List.reverse_append, List.reverse_singleton, List.singleton_append, firstIndex]
    dsimp only
    cases test c.window[k] with
    | error fault => rfl
    | ok answer =>
      cases answer with
      | true => simp [Except.map]
      | false =>
        simp only
        rw [findBelow_eq c test k (by omega)]
        cases firstIndex test (c.window.take k).reverse with
        | error fault => rfl
        | ok index =>
          cases index with
          | none => rfl
          | some i =>
            simp only [Except.map, Option.map_some]
            congr 2
            omega

/-- **The search from the back is the search of the window from its last byte.** -/
theorem findLast_eq (c : Cursor) (test : UInt8 → Except Fault Bool) :
    c.findLast test = lastIndex test c.window := by
  have hall : c.window.take c.length = c.window := by
    rw [← length_window, List.take_length]
  rw [findLast, findBelow_eq c test c.length (Nat.le_refl _), hall, lastIndex, length_window]

end Cursor

end Bytewise
