import Mathlib.Tactic
import Mathlib.Data.List.TakeWhile

/-!
# Lines of a stream

A stream is a list, and its first line goes up to a delimiter or to the end.
A reader with room for some elements takes them through the delimiter or leaves
a part of the line behind, which can be drained.
-/

namespace LineFraming

variable {α : Type*} [DecidableEq α]

/-- The first line, without its delimiter. -/
def line (delim : α) (s : List α) : List α := s.takeWhile (· ≠ delim)

/-- What follows the first line and its delimiter. -/
def afterLine (delim : α) (s : List α) : List α :=
  (s.dropWhile (· ≠ delim)).tail

theorem length_afterLine_lt (delim : α) {s : List α} (hs : s ≠ []) :
    (afterLine delim s).length < s.length := by
  have hpos := List.length_pos_of_ne_nil hs
  have hle := (List.dropWhile_suffix (l := s) (· ≠ delim)).length_le
  rw [afterLine, List.length_tail]
  omega

def lines (delim : α) (s : List α) : List (List α) :=
  if _ : s = [] then []
  else line delim s :: lines delim (afterLine delim s)
termination_by s.length
decreasing_by exact length_afterLine_lt delim ‹_›

/-- What a reader with some room takes: through the delimiter, if it fits. -/
def readThrough (delim : α) : ℕ → List α → List α
  | 0, _ => []
  | _ + 1, [] => []
  | room + 1, c :: rest =>
      if c = delim then [c] else c :: readThrough delim room rest

/-- Skipping through the delimiter: whether anything is before it, and what is
left. -/
def drain (delim : α) : Bool → List α → Bool × List α
  | found, [] => (found, [])
  | found, c :: rest =>
      if c = delim then (found, rest) else drain delim true rest

variable {delim : α} {s : List α}

/-! ## The first line -/

@[simp] theorem line_nil : line delim [] = [] := rfl

@[simp] theorem afterLine_nil : afterLine delim [] = [] := rfl

theorem line_cons_self (rest : List α) : line delim (delim :: rest) = [] := by
  simp [line]

theorem afterLine_cons_self (rest : List α) :
    afterLine delim (delim :: rest) = rest := by
  simp [afterLine]

theorem line_cons_of_ne {c : α} (hc : c ≠ delim) (rest : List α) :
    line delim (c :: rest) = c :: line delim rest := by
  simp [line, hc]

theorem afterLine_cons_of_ne {c : α} (hc : c ≠ delim) (rest : List α) :
    afterLine delim (c :: rest) = afterLine delim rest := by
  simp [afterLine, hc]

theorem delim_notMem_line : delim ∉ line delim s := by
  intro hmem
  have hne := List.mem_takeWhile_imp hmem
  simp at hne

theorem afterLine_suffix (delim : α) (s : List α) : afterLine delim s <:+ s :=
  (List.tail_suffix _).trans (List.dropWhile_suffix _)

theorem append_afterLine (hmem : delim ∈ s) :
    line delim s ++ delim :: afterLine delim s = s := by
  induction s with
  | nil => cases hmem
  | cons c rest ih =>
      by_cases hc : c = delim
      · rw [hc, line_cons_self, afterLine_cons_self, List.nil_append]
      · have hrest := List.mem_of_ne_of_mem (Ne.symm hc) hmem
        rw [line_cons_of_ne hc, afterLine_cons_of_ne hc, List.cons_append,
          ih hrest]

theorem drop_line (hmem : delim ∈ s) :
    s.drop ((line delim s).length + 1) = afterLine delim s := by
  have hsplit := append_afterLine hmem
  calc
    s.drop ((line delim s).length + 1) =
        (line delim s ++ delim :: afterLine delim s).drop
          ((line delim s).length + 1) := by rw [hsplit]
    _ = (delim :: afterLine delim s).drop 1 := by
      rw [← List.drop_drop, List.drop_left]
    _ = afterLine delim s := rfl

/-- Taking a part of the line off leaves the rest of the line. -/
theorem line_drop {k : ℕ} (hk : k ≤ (line delim s).length) :
    line delim (s.drop k) = (line delim s).drop k ∧
      afterLine delim (s.drop k) = afterLine delim s := by
  induction k generalizing s with
  | zero => exact ⟨rfl, rfl⟩
  | succ k ih =>
      cases s with
      | nil => simp at hk
      | cons c rest =>
          by_cases hc : c = delim
          · rw [hc, line_cons_self] at hk
            simp at hk
          · rw [line_cons_of_ne hc, List.length_cons] at hk
            rw [line_cons_of_ne hc, afterLine_cons_of_ne hc]
            exact ih (Nat.le_of_succ_le_succ hk)

/-! ## All lines -/

@[simp] theorem lines_nil : lines delim [] = [] := by
  rw [lines, dif_pos rfl]

theorem lines_of_ne_nil (hs : s ≠ []) :
    lines delim s = line delim s :: lines delim (afterLine delim s) := by
  rw [lines, dif_neg hs]

theorem lines_afterLine : lines delim (afterLine delim s) =
    (lines delim s).tail := by
  by_cases hs : s = []
  · rw [hs, afterLine_nil, lines_nil, List.tail_nil]
  · rw [lines_of_ne_nil hs, List.tail_cons]

/-! ## Readers -/

theorem readThrough_cons {room : ℕ} (hroom : room ≠ 0) (c : α)
    (rest : List α) :
    ∃ others, readThrough delim room (c :: rest) = c :: others := by
  obtain ⟨room, rfl⟩ := Nat.exists_eq_succ_of_ne_zero hroom
  rw [readThrough]
  split_ifs
  · exact ⟨[], rfl⟩
  · exact ⟨_, rfl⟩

theorem length_readThrough_le (delim : α) (room : ℕ) (s : List α) :
    (readThrough delim room s).length ≤ room := by
  induction s generalizing room with
  | nil => cases room <;> simp [readThrough]
  | cons c rest ih =>
      cases room with
      | zero => simp [readThrough]
      | succ room =>
          rw [readThrough]
          split_ifs
          · simp
          · exact Nat.succ_le_succ (ih room)

theorem readThrough_of_fits {room : ℕ} (hmem : delim ∈ s)
    (hfits : (line delim s).length < room) :
    readThrough delim room s = line delim s ++ [delim] := by
  induction s generalizing room with
  | nil => cases hmem
  | cons c rest ih =>
      obtain ⟨room, rfl⟩ := Nat.exists_eq_succ_of_ne_zero
        (Nat.ne_of_gt (Nat.zero_lt_of_lt hfits))
      by_cases hc : c = delim
      · rw [readThrough, if_pos hc, hc, line_cons_self, List.nil_append]
      · have hrest := List.mem_of_ne_of_mem (Ne.symm hc) hmem
        rw [line_cons_of_ne hc, List.length_cons] at hfits
        rw [readThrough, if_neg hc, line_cons_of_ne hc, List.cons_append,
          ih hrest (Nat.lt_of_succ_lt_succ hfits)]

theorem readThrough_of_not_fits {room : ℕ}
    (hfits : ¬ (delim ∈ s ∧ (line delim s).length < room)) :
    readThrough delim room s = (line delim s).take room := by
  induction s generalizing room with
  | nil =>
      cases room with
      | zero => rfl
      | succ room => rfl
  | cons c rest ih =>
      cases room with
      | zero => rfl
      | succ room =>
          by_cases hc : c = delim
          · rw [hc, line_cons_self] at hfits
            simp at hfits
          · rw [line_cons_of_ne hc, List.mem_cons, List.length_cons,
              Nat.succ_lt_succ_iff] at hfits
            rw [readThrough, if_neg hc, line_cons_of_ne hc,
              List.take_succ_cons,
              ih fun hrest => hfits ⟨.inr hrest.1, hrest.2⟩]

theorem drain_eq (found : Bool) :
    drain delim found s =
      (found || !(line delim s).isEmpty, afterLine delim s) := by
  induction s generalizing found with
  | nil => simp [drain]
  | cons c rest ih =>
      by_cases hc : c = delim
      · rw [drain, if_pos hc, hc, line_cons_self, afterLine_cons_self]
        simp
      · rw [drain, if_neg hc, ih, line_cons_of_ne hc, afterLine_cons_of_ne hc]
        simp

end LineFraming
