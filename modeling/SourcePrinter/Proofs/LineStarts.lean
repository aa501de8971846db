import SourcePrinter.Language.CSharp
import SourcePrinter.Proofs.Operations
import SourcePrinter.Proofs.Separators

/-! Starts of lines. A writer that starts a line has nothing on it. The converse has one exception:
padding to the first column begins a line without writing anything, and so does a list that began
there when it breaks. What is to end only lines that hold something ends such a line as well. -/

namespace SourcePrinter

theorem lastLine_append {text more : List Char} (h : '\n' ∉ more) :
    lastLine (text ++ more) = lastLine text ++ more := by
  have hmore : ∀ c ∈ more.reverse, decide (c ≠ '\n') = true := by
    intro c hc
    exact decide_eq_true fun hn => h (hn ▸ List.mem_reverse.1 hc)
  rw [lastLine, List.reverse_append, List.takeWhile_append_of_pos hmore, List.reverse_append,
    List.reverse_reverse]
  rfl

theorem Indentation.padding_eq_nil (i : Indentation) {column : Nat} :
    i.padding column = [] ↔ column = 0 := by
  constructor
  · intro h
    rw [← i.width_padding column, h]
    rfl
  · rintro rfl
    simp [padding]

/-! ### Hollow lines -/

namespace Writer

variable {w v : Writer} {a : List Char}

/-- The line has begun, though nothing stands on it. -/
def Hollow (w : Writer) : Prop := w.atLineStart = false ∧ lastLine w.text.toList = []

/-- Where the text tells whether a line starts, no line is hollow. -/
theorem Ended.not_hollow (h : w.Ended) : ¬w.Hollow := by
  rintro ⟨hbegun, hempty⟩
  have hends := (endsLine_iff w.text.toList).2 hempty
  rw [← h, hbegun] at hends
  cases hends

/-- What writes something and lets the text tell whether a line starts leaves no line hollow; what
writes nothing leaves it as it was. -/
theorem hollow_iff_of_quiet (hquiet : v.text = w.text → v.atLineStart = w.atLineStart)
    (h : v.Ended ∨ v.text = w.text) : v.Hollow ↔ w.Hollow ∧ v.text = w.text := by
  constructor
  · intro hv
    have htext := h.resolve_left fun hended => hended.not_hollow hv
    exact ⟨⟨(hquiet htext).symm.trans hv.1, htext ▸ hv.2⟩, htext⟩
  · rintro ⟨hw, htext⟩
    exact ⟨(hquiet htext).trans hw.1, htext ▸ hw.2⟩

theorem Adds.text_eq_iff (h : w.Adds a v) : v.text = w.text ↔ a = [] := by
  rw [← String.toList_inj, h.text]
  exact List.append_right_eq_self

theorem Grows.quiet (h : w.Grows a v) (htext : v.text = w.text) :
    v.atLineStart = w.atLineStart := h.idle (h.text_eq_iff.1 htext)

theorem Grows.hollow_iff (h : w.Grows [] v) : v.Hollow ↔ w.Hollow ∧ v.text = w.text :=
  hollow_iff_of_quiet h.quiet (.inr (h.text_eq_iff.2 rfl))

theorem hollow_writeChars (w : Writer) (text : List Char) :
    (w.writeChars text).Hollow ↔ w.Hollow ∧ (w.writeChars text).text = w.text := by
  obtain ⟨_, hgrows⟩ := w.writeChars_grows text
  refine hollow_iff_of_quiet hgrows.quiet ?_
  cases text with
  | nil => exact .inr rfl
  | cons c more => exact .inl ((Ended.writeChar w c).writeChars more)

theorem hollow_blankLines (w : Writer) (count : Nat) :
    (w.blankLines count).Hollow ↔ w.Hollow ∧ (w.blankLines count).text = w.text := by
  obtain ⟨_, hgrows⟩ := w.blankLines_grows count
  refine hollow_iff_of_quiet hgrows.quiet ?_
  cases count with
  | zero => exact .inr rfl
  | succ count => exact .inl ((Ended.newline w).blankLines count)

theorem hollow_newline (w : Writer) :
    w.newline.Hollow ↔ w.Hollow ∧ w.newline.text = w.text := w.hollow_blankLines 1

/-- Padding leaves a line hollow exactly if nothing stood on it and it is padded to the first
column. -/
theorem hollow_padTo (hcolumn : lastLine w.text.toList = [] → w.position.virtualColumn = 0)
    (column : Nat) :
    (w.padTo column).Hollow ↔ column = 0 ∧ lastLine w.text.toList = [] := by
  obtain ⟨tabs, spaces, hpad⟩ : ∃ tabs spaces, (w.padTo column).text.toList =
      w.text.toList ++ List.replicate tabs '\t' ++ List.replicate spaces ' ' :=
    ⟨_, _, (putMany_adds (w.putMany '\t' _) ' ' _).text.trans
      (congrArg (· ++ _) (putMany_adds w '\t' _).text)⟩
  rw [List.append_assoc] at hpad
  have hline : '\n' ∉ List.replicate tabs '\t' ++ List.replicate spaces ' ' := by
    intro h
    rcases List.mem_append.1 h with h | h <;> cases List.eq_of_mem_replicate h
  have hlast : (w.padTo column).Hollow ↔ lastLine w.text.toList = [] ∧
      List.replicate tabs '\t' ++ List.replicate spaces ' ' = [] := by
    show _ ∧ lastLine (w.padTo column).text.toList = [] ↔ _
    rw [hpad, lastLine_append hline, List.append_eq_nil_iff]
    exact and_iff_right rfl
  rw [hlast, and_comm]
  refine and_congr_left fun hempty => ?_
  have hpadding := List.append_cancel_left (hpad.symm.trans (text_padTo (hcolumn hempty) column))
  rw [hpadding, Indentation.padding_eq_nil]

end Writer

/-! ### Operations -/

namespace WriterOp

variable {w : Writer}

/-- The operation pads a line on which nothing stands, to the first column. -/
def PadsNothing (w : Writer) : WriterOp → Prop
  | .padTo column => column = 0 ∧ lastLine w.text.toList = []
  | .separator text threshold column =>
    column = 0 ∧ threshold < w.position.virtualColumn + text.length
  | _ => False

/-- Padding begins the line, so if the text is the same after it, a hollow line stays one. -/
theorem hollow_iff_of_pads {v : Writer} {pads : Prop} (hv : v.atLineStart = false)
    (h : v.Hollow ↔ pads) : v.Hollow ↔ pads ∨ w.Hollow ∧ v.text = w.text := by
  rw [h, or_iff_left_of_imp]
  rintro ⟨hw, htext⟩
  exact h.1 ⟨hv, htext ▸ hw.2⟩

/-- After an operation the line is hollow exactly if the operation padded it so, or if it was hollow
and nothing was written. -/
theorem hollow_run (hcolumn : lastLine w.text.toList = [] → w.position.virtualColumn = 0)
    (op : WriterOp) :
    (op.run w).1.Hollow ↔ op.PadsNothing w ∨ w.Hollow ∧ (op.run w).1.text = w.text := by
  cases op with
  | padTo column => exact hollow_iff_of_pads rfl (Writer.hollow_padTo hcolumn column)
  | separator text threshold column =>
    show (w.writeSeparator text threshold column).1.Hollow ↔ _ ∨ _ ∧
      (w.writeSeparator text threshold column).1.text = _
    unfold Writer.writeSeparator
    split
    · next hfits =>
      refine (w.hollow_writeChars _).trans (or_iff_right fun h => ?_).symm
      exact absurd h.2 (Nat.not_lt.2 hfits)
    · next hfull =>
      -- The broken line is ended, so nothing stands on the one that is padded.
      have hnewline : lastLine (w.writeChars (trimEnd text.toList)).newline.text.toList = [] :=
        (endsLine_iff _).1 (Writer.Ended.newline _).symm
      refine hollow_iff_of_pads rfl ((Writer.hollow_padTo (fun _ => rfl) column).trans ?_)
      rw [and_iff_left hnewline]
      exact (and_iff_left (Nat.lt_of_not_le hfull)).symm
  | write text => exact (w.hollow_writeChars _).trans (or_iff_right id).symm
  | space => exact (w.hollow_writeChars _).trans (or_iff_right id).symm
  | newline => exact w.hollow_newline.trans (or_iff_right id).symm
  | blankLines count => exact (w.hollow_blankLines count).trans (or_iff_right id).symm
  | writeLine text =>
    obtain ⟨_, hgrows⟩ := w.writeChars_grows text.toList
    have hquiet := (hgrows.trans (Writer.newline_grows _)).quiet
    exact (Writer.hollow_iff_of_quiet hquiet (.inl (.newline _))).trans (or_iff_right id).symm
  | indent | dedent =>
    exact (Writer.hollow_iff_of_quiet (fun _ => rfl) (.inr rfl)).trans (or_iff_right id).symm
  | beginList => exact w.beginList_grows.hollow_iff.trans (or_iff_right id).symm
  | endList owned => exact (w.endList_grows owned).hollow_iff.trans (or_iff_right id).symm

/-! ### Histories -/

/-- One of the operations padded nothing, and nothing was written after it. -/
def PaddedLast (w : Writer) (ops : List WriterOp) : Prop :=
  ∃ before op after, ops = before ++ op :: after ∧ op.PadsNothing (runAll w before) ∧
    (runAll w ops).text = (runAll w (before ++ [op])).text

/-- Where nothing stands on the line, no column is taken. -/
theorem virtualColumn_runAll (i : Indentation) (ops : List WriterOp)
    (h : lastLine (runAll (.new i) ops).text.toList = []) :
    (runAll (.new i) ops).position.virtualColumn = 0 := by
  rw [(runAll_placed i ops).2.1, Position.ofText, h]
  rfl

/-- Text that is the same after more operations was the same all the time. -/
theorem text_runAll_of_eq {a b : List WriterOp} (h : (runAll w (a ++ b)).text = w.text) :
    (runAll w a).text = w.text ∧ (runAll w (a ++ b)).text = (runAll w a).text := by
  obtain ⟨first, hfirst⟩ := runAll_adds a w
  obtain ⟨second, hsecond⟩ := runAll_adds b (runAll w a)
  rw [runAll_append] at h ⊢
  obtain ⟨rfl, rfl⟩ := List.append_eq_nil_iff.1 ((hfirst.trans hsecond).text_eq_iff.1 h)
  exact ⟨hfirst.text_eq_iff.2 rfl, hsecond.text_eq_iff.2 rfl⟩

/-- A line is hollow exactly if it was padded to the first column, and nothing was written since. -/
theorem hollow_runAll (i : Indentation) (ops : List WriterOp) :
    (runAll (.new i) ops).Hollow ↔ PaddedLast (.new i) ops := by
  induction ops using List.reverseRecOn with
  | nil =>
    refine iff_of_false (fun h => nomatch h.1) ?_
    rintro ⟨before, op, after, hops, -⟩
    exact absurd hops.symm (by simp)
  | append_singleton ops op ih =>
    have hlast : runAll (.new i) (ops ++ [op]) = (op.run (runAll (.new i) ops)).1 :=
      runAll_append _ _ _
    rw [hlast, hollow_run (virtualColumn_runAll i ops), ih, ← hlast]
    constructor
    · rintro (hpads | ⟨⟨before, op', after, rfl, hpads, htext⟩, hsame⟩)
      · exact ⟨ops, op, [], rfl, hpads, rfl⟩
      · exact ⟨before, op', after ++ [op], by simp, hpads, hsame.trans htext⟩
    · rintro ⟨before, op', after, hops, hpads, htext⟩
      cases after using List.reverseRecOn with
      | nil =>
        obtain ⟨rfl, hop⟩ := List.append_inj' hops rfl
        rw [List.singleton_inj.1 hop]
        exact .inl hpads
      | append_singleton more op'' =>
        -- The operation that padded is among the earlier ones.
        rw [← List.cons_append, ← List.append_assoc] at hops
        obtain ⟨rfl, -⟩ := List.append_inj' hops rfl
        have hcut : before ++ op' :: more = (before ++ [op']) ++ more := List.append_cons _ _ _
        rw [hcut, List.append_assoc, runAll_append _ (before ++ [op'])] at htext
        obtain ⟨hmore, hsame⟩ := text_runAll_of_eq htext
        rw [← runAll_append, ← hcut] at hmore
        rw [← runAll_append, ← runAll_append, ← List.append_assoc, ← hcut] at hsame
        exact .inr ⟨⟨before, op', more, rfl, hpads, hmore⟩, hsame⟩

end WriterOp

/-! ### Ends of lines -/

namespace Writer

variable {w : Writer}

theorem ensureLineStart_idem (w : Writer) :
    w.ensureLineStart.ensureLineStart = w.ensureLineStart := by
  have hstart : w.ensureLineStart.atLineStart = true := by
    unfold ensureLineStart
    split
    · assumption
    · rfl
  rw [ensureLineStart, if_pos hstart]

/-- A line is ended exactly if none starts. -/
theorem ensureLineStart_eq_newline : w.ensureLineStart = w.newline ↔ w.atLineStart = false := by
  unfold ensureLineStart
  cases w.atLineStart with
  | false => exact iff_of_true rfl rfl
  | true =>
    refine iff_of_false (fun h => ?_) nofun
    have htext := congrArg (fun v : Writer => v.text.toList) h
    rw [if_pos rfl] at htext
    exact absurd (htext.trans w.newline_grows.text) (by simp)

end Writer

/-- After any operations, and so at every moment of a script, in which texts, names and lists are
written and lists may be nested and break. A writer starts a line exactly if nothing stands on the
line, unless the last that was done to the line was to pad it to the first column, as a separator
does that breaks in a list which began there. What is to end only lines that hold something ends
those that do, and those that were padded so and are empty; it does nothing the second time. Columns
and tabs are of any size; they are those of a machine where the operations are in range
(`WriterOp.runAll?_inRange`), and in every script that the checked machine does not abort
(`Script.runAll?_exact`). -/
theorem Writer.line_starts_iff (around : Script.Surroundings) :
    (∀ ops : List WriterOp,
      let w := WriterOp.runAll (.new around.options.indentation) ops
      let padded := WriterOp.PaddedLast (.new around.options.indentation) ops
      w.position.column = (lastLine w.text.toList).length ∧
      (w.atLineStart = true ↔ w.position.column = 0 ∧ ¬padded) ∧
      (padded → w.position.column = 0) ∧
      (w.ensureLineStart = w.newline ↔ 0 < w.position.column ∨ padded) ∧
      w.ensureLineStart.ensureLineStart = w.ensureLineStart) ∧
    ∀ steps : List Step,
      (Script.runAll around steps (.start around)).pass.writer =
        WriterOp.runAll (.new around.options.indentation)
          (Script.operations around steps (.start around)) := by
  refine ⟨fun ops => ?_, fun steps => Script.runAll_operations around steps _⟩
  intro w padded
  obtain ⟨-, hposition, hstarts⟩ := WriterOp.runAll_placed around.options.indentation ops
  have hcolumn : w.position.column = (lastLine w.text.toList).length :=
    congrArg Position.column hposition
  have hempty : w.position.column = 0 ↔ lastLine w.text.toList = [] := by
    rw [hcolumn, List.length_eq_zero_iff]
  have hhollow : w.atLineStart = false ∧ lastLine w.text.toList = [] ↔ padded :=
    WriterOp.hollow_runAll around.options.indentation ops
  have hbegun : w.atLineStart = false ↔ 0 < w.position.column ∨ padded := by
    rw [← hhollow, Nat.pos_iff_ne_zero, Ne, hempty]
    have hw : w.atLineStart = true → lastLine w.text.toList = [] := hstarts
    cases hstart : w.atLineStart with
    | true => simp [hw hstart]
    | false => simp [em']
  refine ⟨hcolumn, ?_, fun hp => hempty.2 (hhollow.2 hp).2, ?_, w.ensureLineStart_idem⟩
  · rw [← Bool.not_eq_false, hbegun, not_or, Nat.pos_iff_ne_zero, Ne, not_not]
  · exact Writer.ensureLineStart_eq_newline.trans hbegun

namespace Script

/-- Lines longer than one character break. -/
def narrow : Surroundings := ⟨.csharp, { Options.initial with wrapColumn := 1 }, none⟩

/-- A list at the first column; its second item is to start a line. -/
def listing : List Step :=
  [⟨"list", .list ", " [[⟨"a", .write "a"⟩], [⟨"start", .lineStart⟩, ⟨"b", .write "b"⟩]]⟩]

/-- The operations of the list up to the break in it. -/
def broken : List WriterOp := [.beginList, .write "a", .separator ", " 1 0]

theorem listing_line_starts :
    (runAll narrow listing (.start narrow)).pass.writer =
      WriterOp.runAll (.new narrow.options.indentation)
        (broken ++ [.newline, .write "b", .endList true]) ∧
    WriterOp.PaddedLast (.new narrow.options.indentation) broken ∧
    let w := WriterOp.runAll (.new narrow.options.indentation) broken
    w.position.column = 0 ∧ w.atLineStart ≠ true ∧ w.ensureLineStart = w.newline := by
  obtain ⟨hwriters, hscripts⟩ := Writer.line_starts_iff narrow
  have hoperations : operations narrow listing (.start narrow) =
      broken ++ [.newline, .write "b", .endList true] := by decide +kernel
  have hpadded : WriterOp.PaddedLast (.new narrow.options.indentation) broken :=
    ⟨[.beginList, .write "a"], .separator ", " 1 0, [], rfl, ⟨rfl, by decide⟩, rfl⟩
  obtain ⟨-, hstarts, hcolumn, hends, -⟩ := hwriters broken
  exact ⟨hoperations ▸ hscripts listing, hpadded, hcolumn hpadded,
    fun h => (hstarts.1 h).2 hpadded, hends.2 (.inr hpadded)⟩

/-- After the break nothing stands on the line and yet none starts, so the item starts one more and
leaves an empty line. -/
theorem listing_leaves_empty_line :
    let w := WriterOp.runAll (.new narrow.options.indentation) broken
    w.position.column = 0 ∧ ¬(w.atLineStart = true ↔ w.position.column = 0) ∧
      w.ensureLineStart.text = "a,\n\n" ∧
      (runAll narrow listing (.start narrow)).pass.writer.text = "a,\n\nb" := by
  decide +kernel

end Script

end SourcePrinter
