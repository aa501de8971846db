/-! Dotted names: a name is its segments with dots between them. Main statements: joining the
segments gives the name back, and splitting a join gives the segments back when they hold no dot. -/

namespace SourcePrinter

/-- The segments of a name; a name without a dot is one segment. -/
def segments : List Char → List (List Char)
  | [] => [[]]
  | c :: rest =>
    if c = '.' then [] :: segments rest
    else
      match segments rest with
      | [] => [[c]]
      | segment :: more => (c :: segment) :: more

/-- The name with the given segments. -/
def joinDots : List (List Char) → List Char
  | [] => []
  | [segment] => segment
  | segment :: next :: more => segment ++ '.' :: joinDots (next :: more)

/-- The last segment of a name. -/
def lastSegment (name : List Char) : List Char :=
  (segments name).getLastD name

theorem segments_ne_nil (name : List Char) : segments name ≠ [] := by
  cases name with
  | nil => simp [segments]
  | cons c rest =>
    simp only [segments]
    split
    · simp
    · split <;> simp

theorem joinDots_segments (name : List Char) : joinDots (segments name) = name := by
  induction name with
  | nil => rfl
  | cons c rest ih =>
    obtain ⟨segment, more, h⟩ := List.exists_cons_of_ne_nil (segments_ne_nil rest)
    rw [h] at ih
    by_cases hc : c = '.'
    · simp only [segments, hc, if_true, h, joinDots, List.nil_append, ih]
    · simp only [segments, hc, if_false, h]
      cases more with
      | nil => simp only [joinDots] at ih ⊢; rw [ih]
      | cons next more => simp only [joinDots, List.cons_append] at ih ⊢; rw [ih]

theorem segments_append_dot (segment : List Char) (h : '.' ∉ segment) (rest : List Char) :
    segments (segment ++ '.' :: rest) = segment :: segments rest := by
  induction segment with
  | nil => simp [segments]
  | cons c segment ih =>
    simp only [List.mem_cons, not_or] at h
    simp only [List.cons_append, segments, if_neg (Ne.symm h.1), ih h.2]

theorem segments_of_no_dot (segment : List Char) (h : '.' ∉ segment) :
    segments segment = [segment] := by
  induction segment with
  | nil => rfl
  | cons c segment ih =>
    simp only [List.mem_cons, not_or] at h
    simp only [segments, if_neg (Ne.symm h.1), ih h.2]

theorem segments_joinDots (parts : List (List Char)) (hne : parts ≠ [])
    (h : ∀ segment ∈ parts, '.' ∉ segment) : segments (joinDots parts) = parts := by
  induction parts with
  | nil => exact absurd rfl hne
  | cons segment more ih =>
    cases more with
    | nil => simpa [joinDots] using segments_of_no_dot segment (h _ (by simp))
    | cons next more =>
      simp only [joinDots]
      rw [segments_append_dot _ (h _ (by simp)),
        ih (by simp) fun s hs => h s (List.mem_cons_of_mem _ hs)]

/-- A segment of a name holds no dot. -/
theorem no_dot_of_mem_segments {name segment : List Char} (h : segment ∈ segments name) :
    '.' ∉ segment := by
  induction name generalizing segment with
  | nil => simp only [segments, List.mem_singleton] at h; simp [h]
  | cons c rest ih =>
    simp only [segments] at h
    split at h
    · rcases List.mem_cons.1 h with rfl | h
      · simp
      · exact ih h
    · rename_i hc
      obtain ⟨first, more, hs⟩ := List.exists_cons_of_ne_nil (segments_ne_nil rest)
      rw [hs] at h
      rcases List.mem_cons.1 h with rfl | h
      · simp only [List.mem_cons, not_or]
        exact ⟨fun e => hc e.symm, ih (by simp [hs])⟩
      · exact ih (by simp [hs, h])

theorem lastSegment_eq_getLast (name : List Char) :
    lastSegment name = (segments name).getLast (segments_ne_nil name) := by
  rw [lastSegment, List.getLastD_eq_getLast?, List.getLast?_eq_some_getLast (segments_ne_nil name),
    Option.getD_some]

theorem lastSegment_mem (name : List Char) : lastSegment name ∈ segments name := by
  rw [lastSegment_eq_getLast]
  exact List.getLast_mem _

theorem lastSegment_of_no_dot {segment : List Char} (h : '.' ∉ segment) :
    lastSegment segment = segment := by
  simp [lastSegment, segments_of_no_dot segment h]

end SourcePrinter
