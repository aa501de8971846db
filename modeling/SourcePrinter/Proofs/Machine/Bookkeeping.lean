import SourcePrinter.Proofs.Machine.Range

/-! What a writer knows of its own text on a machine. Operations in range are not aborted, and what
is not aborted leaves the position of the text as the machine counts it. -/

namespace SourcePrinter

open Machine (words)

/-! ### Operations -/

namespace WriterOp

variable {m : Machine} {w v : Writer} {op : WriterOp} {answer : WriterAnswer}

/-- An operation adds to the text, the position follows, and a line starts only where the text ends
one. -/
theorem run?_extends (h : op.run? m w = some (v, answer)) :
    (∃ added, w.Extends m added v) ∧ (w.Starts → v.Starts) := by
  have lays {ink : List Char} {silent : Prop} (hlays : w.Lays m ink silent v) :
      (∃ added, w.Extends m added v) ∧ (w.Starts → v.Starts) := by
    obtain ⟨added, hadded, -⟩ := hlays.adds
    exact ⟨⟨added, hadded⟩, hlays.starts⟩
  -- Most operations answer nothing.
  have quiet {x : Option Writer} (hx : x.map (·, WriterAnswer.nothing) = some (v, answer)) :
      x = some v := by
    obtain ⟨u, hu, hv⟩ := Option.map_eq_some_iff.1 hx
    cases hv
    exact hu
  cases op with
  | write text => exact lays (Writer.write?_lays (quiet h))
  | writeLine text => exact lays (Writer.writeLine?_lays (quiet h))
  | newline => exact lays (Writer.newline?_lays (quiet h))
  | blankLines count => exact lays (Writer.blankLines?_lays (quiet h))
  | space => exact lays (Writer.write?_lays (quiet h))
  | indent => exact lays (Writer.indent?_lays (quiet h))
  | dedent =>
    cases h
    exact lays (Writer.dedent_lays m w)
  | padTo column =>
    obtain ⟨added, hadded, -, hbegun⟩ := Writer.padTo?_prints (quiet h)
    exact ⟨⟨added, hadded.toExtends⟩, fun _ => Writer.starts_of_begun hbegun⟩
  | beginList =>
    obtain ⟨⟨u, column, owned⟩, hbegin, hv⟩ := Option.map_eq_some_iff.1 h
    cases hv
    exact lays (Writer.beginList?_lays hbegin)
  | endList owned =>
    cases h
    exact lays (Writer.endList_lays m w owned)
  | separator text threshold column =>
    obtain ⟨⟨u, broken⟩, hseparator, hv⟩ := Option.map_eq_some_iff.1 h
    cases hv
    obtain ⟨stop, -, ⟨-, hwrite, -⟩ | ⟨-, -, x, y, htrim, hline, hpad⟩⟩ :=
      Writer.writeSeparator?_eq hseparator
    · exact lays (Writer.write?_lays hwrite)
    · obtain ⟨added, hadded, -, -, hbegun⟩ := Writer.break?_extends htrim hline hpad
      exact ⟨⟨added, hadded⟩, fun _ => Writer.starts_of_begun hbegun⟩

theorem runAll?_extends {ops : List WriterOp} (h : runAll? m w ops = some v) :
    (∃ added, w.Extends m added v) ∧ (w.Starts → v.Starts) := by
  induction ops generalizing w with
  | nil =>
    cases h
    exact ⟨⟨[], .refl m _⟩, id⟩
  | cons op ops ih =>
    obtain ⟨u, hop, hmore⟩ := Option.bind_eq_some_iff.1 h
    obtain ⟨⟨u, answer⟩, hrun, rfl⟩ := Option.map_eq_some_iff.1 hop
    obtain ⟨⟨a, ha⟩, hstarts⟩ := run?_extends hrun
    obtain ⟨⟨b, hb⟩, hstarts'⟩ := ih hmore
    exact ⟨⟨a ++ b, ha.trans hb⟩, fun hw => hstarts' (hstarts hw)⟩

end WriterOp

/-- A text in one line stands behind the indentation that is due, at the next position. -/
theorem Writer.CountedOn.nextPosition? {m : Machine} {w v : Writer} {s : String}
    (hw : w.CountedOn m) (hne : s ≠ "") (hs : '\n' ∉ s.toList) (h : w.write? m s = some v) :
    ∃ due : List Char, (∀ c ∈ due, c = '\t' ∨ c = ' ') ∧
      v.text.toList = w.text.toList ++ due ++ s.toList ∧
      w.nextPosition? m =
        some ((Position.ofText w.indentation.width (w.text.toList ++ due)).on m) := by
  have hne : s.toList ≠ [] := fun hnil => hne (String.toList_eq_nil_iff.1 hnil)
  obtain ⟨due, hdue, hline, -⟩ := writeChars?_prints hs hne h
  obtain ⟨u, hsettle⟩ := settle?_of_writeChars? hs hne h
  obtain ⟨due', hdue', hsettled, -⟩ := settle?_prints hsettle
  cases hdue.symm.trans hdue'
  refine ⟨due, blank_of_due? hdue, ?_, ?_⟩
  · rw [hline.text, List.append_assoc]
  · rw [nextPosition?_of_settle? hw hsettle, (hsettled.counted hw).position, hsettled.indentation,
      hsettled.text]

/-- A machine aborts no operations in range. After any that it has not aborted, the position is that
of the end of the text as it counts it, a line starts only where nothing stands on the last one, and
the first character of a text in one line, after tabs or spaces that were due, stands at the next
position. -/
theorem Writer.bookkeeping_on (m : Machine) (i : Indentation) (ops : List WriterOp) :
    (WriterOp.InRange i ops → ∃ w, WriterOp.runAll? m (.new i) ops = some w) ∧
      ∀ w, WriterOp.runAll? m (.new i) ops = some w →
        w.position = (Position.ofText i.width w.text.toList).on m ∧
          (w.atLineStart = true → lastLine w.text.toList = []) ∧
          ∀ (s : String) (v : Writer), s ≠ "" → '\n' ∉ s.toList → w.write? m s = some v →
            ∃ due : List Char, (∀ c ∈ due, c = '\t' ∨ c = ' ') ∧
              v.text.toList = w.text.toList ++ due ++ s.toList ∧
              w.nextPosition? m =
                some ((Position.ofText i.width (w.text.toList ++ due)).on m) := by
  refine ⟨fun hrange => ⟨_, WriterOp.runAll?_inRange m hrange⟩, fun w h => ?_⟩
  obtain ⟨⟨added, hadded⟩, hstarts⟩ := WriterOp.runAll?_extends h
  have hw : w.CountedOn m := hadded.counted (countedOn_new m i)
  have hwidth : w.indentation.width = i.width := congrArg Indentation.width hadded.indentation
  rw [← hwidth]
  refine ⟨hw.position, fun hstart => ?_, fun s v => hw.nextPosition?⟩
  exact (endsLine_iff _).1 (hstarts (Ended.starts rfl) hstart)

/-- Three levels deep, where tabs are four columns wide and where two of them are as wide as a
word. -/
theorem Writer.bookkeeping_on_deep :
    let ops : List WriterOp := [.write "é\n", .indent, .indent, .indent]
    WriterOp.InRange ⟨true, 4⟩ ops ∧
      (∃ w, WriterOp.runAll? .checked (.new ⟨true, 4⟩) ops = some w) ∧
      ∃ w v, WriterOp.runAll? .wrapping (.new ⟨true, words / 2⟩) ops = some w ∧
        w.position = ⟨1, 0, 0, 3⟩ ∧ (w.atLineStart = true ∧ lastLine w.text.toList = []) ∧
        "c" ≠ "" ∧ '\n' ∉ "c".toList ∧ w.write? .wrapping "c" = some v ∧
        v.text.toList = "é\n\t\t\tc".toList ∧
        w.nextPosition? .wrapping = some ⟨1, 3, words / 2, 6⟩ := by
  intro ops
  have hrange : WriterOp.InRange ⟨true, 4⟩ ops := by decide
  obtain ⟨w, hw⟩ : ∃ w, WriterOp.runAll? .wrapping (.new ⟨true, words / 2⟩) ops = some w := ⟨_, rfl⟩
  obtain ⟨hposition, hstart, hnext⟩ :=
    (Writer.bookkeeping_on .wrapping ⟨true, words / 2⟩ ops).2 w hw
  cases hw
  obtain ⟨due, -, htext, hplace⟩ := hnext "c" _ (by decide) (by decide) rfl
  have hdue : "é\n".toList ++ "\t\t\t".toList = "é\n".toList ++ due :=
    List.append_cancel_right (show _ ++ "c".toList = _ from htext)
  rw [← List.append_cancel_left hdue] at hplace
  exact ⟨hrange, (Writer.bookkeeping_on .checked ⟨true, 4⟩ ops).1 hrange, _, _, rfl,
    hposition.trans (by decide), ⟨rfl, hstart rfl⟩, by decide, by decide, rfl, rfl,
    hplace.trans (by decide)⟩

/-- Two tabs as wide as a word are too wide for a machine that counts their columns, and a machine
that wraps around does not see them; and no machine has an indentation as long as that. -/
theorem Writer.wide_tabs_leave_word :
    WriterOp.runAll? .checked (.new ⟨true, words / 2⟩) [.write "\t\t"] = none ∧
      (∃ w, WriterOp.runAll? .wrapping (.new ⟨true, words / 2⟩) [.write "\t\t"] = some w ∧
        w.position ≠ .ofText (words / 2) w.text.toList) ∧
      ∀ m, WriterOp.runAll? m (.new ⟨false, words / 4⟩) [.indent, .indent, .write "a"] = none := by
  refine ⟨by decide, ⟨_, rfl, by decide⟩, fun m => ?_⟩
  cases m <;> decide

end SourcePrinter
