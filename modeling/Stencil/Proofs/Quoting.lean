import Stencil.Proofs.Places
import Stencil.Snippet

/-! # What a diagnostic quotes

A pass over the text for a snippet never runs ahead of the bytes that it has read, and stops before
the end of the text only behind the stretch it looks for. So the snippet of an exact source stands
in the text and covers the source, whatever ends the lines around it and however many of them are
asked for.
-/

namespace Stencil

/-- The snippet stands in the text of the source, around its range. -/
structure Snippet.Covers (snippet : Snippet) (source : Source) : Prop where
  there : snippet.data <+: source.text.drop snippet.offset
  first : snippet.offset ≤ source.start
  last : source.stop ≤ snippet.offset + snippet.data.length

namespace Snippet

/-- The lines before the stretch begin before it, and the current line before the place reached. -/
structure Scan.Sound (r : Request) (s : Scan) : Prop where
  starts : ∀ first ∈ s.starts, first ≤ r.start
  current : s.lineStart ≤ s.offset

variable {r : Request} {s : Scan}

/-- What reading the byte at a place does: the pass stays sound, stands behind the byte, and stops
only behind the stretch. -/
structure Scan.Steps (r : Request) (place : Nat) (result : Scan × Bool) : Prop where
  sound : result.1.Sound r
  moved : result.1.offset = place + 1
  stopped : result.2 = true → r.start + r.length ≤ place + 1

theorem Scan.lineBefore_starts (sound : s.Sound r) (before : s.offset < r.start) :
    ∀ first ∈ (s.lineBefore r).starts, first ≤ r.start := by
  have all : ∀ first ∈ s.starts ++ [s.lineStart], first ≤ r.start :=
    List.forall_mem_append.mpr ⟨sound.starts,
      List.forall_mem_singleton.mpr (Nat.le_trans sound.current (Nat.le_of_lt before))⟩
  unfold lineBefore
  dsimp only
  split
  · exact fun first member => all first (List.mem_of_mem_tail member)
  · exact all

@[simp] theorem Scan.lineBefore_offset (s : Scan) (r : Request) :
    (s.lineBefore r).offset = s.offset := by
  unfold lineBefore
  dsimp only
  split <;> rfl

theorem Scan.lineAfter_sound (sound : s.Sound r) : s.lineAfter.Sound r := by
  unfold lineAfter
  split
  · split <;> exact ⟨sound.starts, sound.current⟩
  · exact sound

@[simp] theorem Scan.lineAfter_offset (s : Scan) : s.lineAfter.offset = s.offset := by
  unfold lineAfter
  split
  · split <;> rfl
  · rfl

/-- Every byte ends with this step; the current line may begin right behind the byte. -/
theorem Scan.next_steps (starts : ∀ first ∈ s.starts, first ≤ r.start)
    (current : s.lineStart ≤ s.offset + 1) : Steps r s.offset (s.next r) := by
  unfold next
  dsimp only
  split
  · rename_i reached
    refine ⟨⟨starts, current⟩, rfl, fun _ => ?_⟩
    unfold Request.finish at reached
    exact Nat.le_add_of_sub_le reached
  · rename_i ahead
    refine ⟨⟨starts, current⟩, rfl, fun stopped => ?_⟩
    exact absurd (of_decide_eq_true stopped).1 ahead

theorem Scan.nextLine_steps {place first : Nat} (starts : ∀ first ∈ s.starts, first ≤ r.start)
    (here : s.offset = place) (begins : first ≤ place + 1) :
    Steps r place ({ s with lineStart := first }.next r) := by
  subst here
  exact next_steps (s := { s with lineStart := first }) starts begins

/-- The end of a line steps to the next one, or over it. -/
theorem Scan.lineEnd_steps (sound : s.Sound r) : Steps r s.offset (s.lineEnd r) := by
  have counted : Sound r { s with lineCount := s.lineCount + 1 } := ⟨sound.starts, sound.current⟩
  unfold lineEnd
  dsimp only
  split
  · rename_i before
    refine nextLine_steps (lineBefore_starts counted before) (lineBefore_offset _ r) ?_
    rw [lineBefore_offset]
  split
  · rename_i reached
    have after := lineAfter_sound counted
    have current := after.current
    rw [lineAfter_offset] at current
    split
    · refine ⟨⟨after.starts, Nat.le_succ_of_le current⟩, rfl, fun _ => ?_⟩
      unfold Request.last at reached
      omega
    · exact nextLine_steps after.starts (lineAfter_offset _) (Nat.le_refl _)
  · exact nextLine_steps counted.starts rfl (Nat.le_refl _)

/-- What reading a byte does that ends no line together with the one behind it. -/
theorem Scan.byte_steps (sound : s.Sound r) (b : UInt8) : Steps r s.offset
    (if b = 0x0D ∨ b = 0x0A then s.lineEnd r
      else if s.offset < r.start then { s with startColumn := s.startColumn + 1 }.next r
      else s.next r) := by
  have current := Nat.le_succ_of_le sound.current
  split
  · exact lineEnd_steps sound
  split
  · exact next_steps (s := { s with startColumn := s.startColumn + 1 }) sound.starts current
  · exact next_steps sound.starts current

/-- The end of a pass: all of the text has been read, or all of the stretch. -/
structure Scan.Ends (r : Request) (length : Nat) (s : Scan) : Prop where
  sound : s.Sound r
  inside : s.offset ≤ length
  covered : s.offset = length ∨ r.start + r.length ≤ s.offset

theorem Scan.Steps.ends {place length : Nat} (steps : Steps r place (s, true))
    (inside : place + 1 ≤ length) : s.Ends r length :=
  ⟨steps.sound, steps.moved ▸ inside, .inr (steps.moved ▸ steps.stopped rfl)⟩

/-- A pass over all bytes ends in or behind the stretch. -/
theorem Scan.run_ends (rest : List UInt8) (s : Scan) (sound : s.Sound r) :
    (run r rest s).Ends r (s.offset + rest.length) := by
  fun_induction run r rest s with
  | case1 s => exact ⟨sound, Nat.le_refl _, .inl rfl⟩
  | case2 rest s after ended =>
    have steps := lineEnd_steps (s := { s with offset := s.offset + 1 })
      ⟨sound.starts, Nat.le_succ_of_le sound.current⟩
    rw [ended] at steps
    exact steps.ends (by simp only [List.length_cons]; omega)
  | case3 rest s after stop ended _ ih =>
    have steps := lineEnd_steps (s := { s with offset := s.offset + 1 })
      ⟨sound.starts, Nat.le_succ_of_le sound.current⟩
    rw [ended] at steps
    have goesOn := ih steps.sound
    have moved : after.offset = s.offset + 1 + 1 := steps.moved
    rw [moved] at goesOn
    simpa only [List.length_cons, Nat.add_assoc, Nat.add_comm 1] using goesOn
  | case4 b rest s _ after read =>
    have steps := byte_steps sound b
    rw [read] at steps
    exact steps.ends (by simp only [List.length_cons]; omega)
  | case5 b rest s _ after stop read _ ih =>
    have steps := byte_steps sound b
    rw [read] at steps
    have goesOn := ih steps.sound
    have moved : after.offset = s.offset + 1 := steps.moved
    rw [moved] at goesOn
    simpa only [List.length_cons, Nat.add_assoc, Nat.add_comm 1] using goesOn

/-- The snippet of an exact source is there, and covers it. -/
theorem of?_covers {source : Source} (exact : source.Exact) (before after : Nat) :
    ∃ snippet, of? source before after = some snippet ∧ snippet.Covers source := by
  unfold of?
  dsimp only
  generalize request : Request.mk source.start source.length before after = r
  have ends := Scan.run_ends (r := r) source.text .begin ⟨nofun, Nat.le_refl _⟩
  generalize Scan.run r source.text .begin = s at ends
  have start : r.start = source.start := request ▸ rfl
  have stop : r.start + r.length = source.stop := request ▸ Nat.add_sub_of_le exact.ordered
  have read : s.offset ≤ source.text.length := Nat.zero_add source.text.length ▸ ends.inside
  have covered : source.stop ≤ s.offset := by
    rcases ends.covered with all | behind
    · rw [all]
      exact Nat.le_trans exact.inside (Nat.le_add_left _ _)
    · exact stop ▸ behind
  have reached : r.finish ≤ s.offset := Nat.le_trans (Nat.sub_le _ _) (stop ▸ covered)
  have first : s.starts.headD (if before = 0 then source.start else 0) ≤ source.start := by
    cases starts : s.starts with
    | nil =>
      rw [List.headD_nil]
      split
      · exact Nat.le_refl _
      · exact Nat.zero_le _
    | cons place others => exact start ▸ ends.sound.starts place (starts ▸ List.mem_cons_self)
  rw [if_pos reached]
  generalize s.starts.headD (if before = 0 then source.start else 0) = place at first
  refine ⟨_, rfl, ?_, first, ?_⟩
  · rw [List.drop_take]
    exact List.take_prefix _ _
  · rw [List.length_drop, List.length_take, Nat.min_eq_left read]
    have ordered := exact.ordered
    dsimp only
    omega

end Snippet

end Stencil
