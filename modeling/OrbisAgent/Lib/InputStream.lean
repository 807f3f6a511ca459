/- OrbisAgent/Lib/InputStream
   generality: G
   digest: An input stream that is read into a buffer of fixed size, and the loop that goes on
   while a call of read succeeds or has read something. -/

import OrbisAgent.Lib.ByteString

set_option autoImplicit false
set_option relaxedAutoImplicit false

namespace OrbisAgent.Lib.InputStream

open OrbisAgent.Lib.ByteString

universe u

/-- What is left to read, whether neither end of file nor failure was met, and what the last
call has read. -/
structure Stream where
  rest : Bytes
  good : Bool
  gcount : Nat

/-- A stream at the beginning of its content. -/
def Stream.opened (content : Bytes) : Stream := ⟨content, true, 0⟩

/-- `read(buf, n)`: what it puts into `buf`, and the stream behind. A call that finds fewer than
`n` bytes reads them and fails, and so does every call after it. -/
def Stream.read (n : Nat) (s : Stream) : Bytes × Stream :=
  if !s.good then ([], { s with gcount := 0 })
  else if n ≤ s.rest.length then (s.rest.take n, ⟨s.rest.drop n, true, n⟩)
  else (s.rest, ⟨[], false, s.rest.length⟩)

/-- What each further round of the loop takes away. -/
def Stream.left (s : Stream) : Nat := s.rest.length + s.good.toNat

theorem left_read {n : Nat} (pos : 0 < n) {s : Stream}
    (goesOn : ((s.read n).2.good || decide (0 < (s.read n).2.gcount)) = true) :
    (s.read n).2.left < s.left := by
  obtain ⟨rest, good, gcount⟩ := s
  cases good with
  | false => simp [Stream.read] at goesOn
  | true =>
      by_cases whole : n ≤ rest.length
      · simp only [Stream.read, Stream.left, whole, Bool.not_true, Bool.false_eq_true, if_false,
          if_true, List.length_drop]
        omega
      · simp [Stream.read, Stream.left, whole]

section Loop

variable {β : Type u} (body : β → Bytes → β)

/-- `while (s.read(buf, n) || s.gcount() > 0) body`, for a buffer of `n + 1` bytes. -/
def whileRead (n : Nat) (b : β) (s : Stream) : β :=
  let next := s.read (n + 1)
  if next.2.good || decide (0 < next.2.gcount) then whileRead n (body b next.1) next.2 else b
termination_by s.left
decreasing_by
  apply left_read (Nat.succ_pos n)
  assumption

end Loop

/-- A content in pieces of `n + 1` bytes, of which the last may be shorter. -/
def buffers (n : Nat) (content : Bytes) : List Bytes :=
  if content = [] then [] else content.take (n + 1) :: buffers n (content.drop (n + 1))
termination_by content.length
decreasing_by
  rename_i nonempty
  have pos := List.length_pos_iff.mpr nonempty
  rw [List.length_drop]
  omega

/-- The pieces have every byte once. -/
theorem flatten_buffers (n : Nat) (content : Bytes) : (buffers n content).flatten = content := by
  induction content using buffers.induct n with
  | case1 => simp [buffers]
  | case2 content nonempty ih =>
      rw [buffers, if_neg nonempty, List.flatten_cons, ih, List.take_append_drop]

section Loop

variable {β : Type u} (body : β → Bytes → β)

theorem whileRead_failed (n : Nat) (b : β) (gcount : Nat) :
    whileRead body n b ⟨[], false, gcount⟩ = b := by
  rw [whileRead]
  simp [Stream.read]

/-- The loop runs over the pieces of the content, whatever its length. -/
theorem whileRead_opened (n : Nat) (b : β) (rest : Bytes) (gcount : Nat) :
    whileRead body n b ⟨rest, true, gcount⟩ = (buffers n rest).foldl body b := by
  induction rest using buffers.induct n generalizing b gcount with
  | case1 =>
      rw [whileRead, buffers]
      simp [Stream.read]
  | case2 rest nonempty ih =>
      rw [whileRead, buffers, if_neg nonempty, List.foldl_cons]
      by_cases whole : n + 1 ≤ rest.length
      · simp only [Stream.read, whole, Bool.not_true, Bool.false_eq_true, if_false, if_true,
          Bool.true_or]
        exact ih _ _
      · have pos := List.length_pos_iff.mpr nonempty
        have short : rest.take (n + 1) = rest := List.take_of_length_le (by omega)
        have none : rest.drop (n + 1) = [] := List.drop_of_length_le (by omega)
        have last : buffers n [] = [] := by
          rw [buffers, if_pos rfl]
        -- the last buffer is not full: the call has failed, but has read something
        simp only [Stream.read, whole, Bool.not_true, Bool.false_eq_true, if_false, Bool.false_or,
          decide_eq_true_eq, pos, if_true, short, none, last, List.foldl_nil]
        exact whileRead_failed body n _ _

end Loop

end OrbisAgent.Lib.InputStream
