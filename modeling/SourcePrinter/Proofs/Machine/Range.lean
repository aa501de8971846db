import SourcePrinter.Proofs.Machine.Runs
import SourcePrinter.Proofs.Machine.Steps
import SourcePrinter.Proofs.Operations

/-! A range in which no machine aborts. The size of the text that a run comes to bounds the counts
of everything on the way to it, but for those that look ahead: the indentation of lines that stay
empty, and separators that are broken. -/

namespace SourcePrinter

open Machine (words longest)

namespace Position

variable {tabWidth : Nat}

/-- No character takes more columns than a tab or one. -/
theorem columns_le (line : List Char) : columns tabWidth line ≤ line.length * (tabWidth + 1) := by
  induction line with
  | nil => exact Nat.zero_le _
  | cons c more ih =>
    have hc : (if c = '\t' then tabWidth else 1) ≤ tabWidth + 1 := by split <;> omega
    rw [columns, List.foldr_cons, ← columns, List.length_cons, Nat.succ_mul]
    omega

theorem virtualColumn_le_bytes (tabWidth : Nat) (text : List Char) :
    (ofText tabWidth text).virtualColumn ≤ bytes text * (tabWidth + 1) :=
  Nat.le_trans (columns_le _) (Nat.mul_le_mul_right _ (column_le_bytes tabWidth text))

end Position

/-! ### Writers -/

namespace Writer

variable {m : Machine} {size ahead : Nat} {w v : Writer} {c : Char} {a text : List Char}

/-- A writer of a text of some size, with room for as many columns more as levels and separators
may look ahead. -/
structure InRange (size ahead : Nat) (w : Writer) : Prop where
  position : w.position = .ofText w.indentation.width w.text.toList
  level : w.level ≤ ahead
  fits : Position.bytes w.text.toList ≤ size
  room : (size + ahead + 1) * (w.indentation.width + 1) ≤ longest

theorem Adds.bytes_le (h : w.Adds a v) :
    Position.bytes w.text.toList ≤ Position.bytes v.text.toList := by
  rw [h.text, Position.bytes_append]
  exact Nat.le_add_right _ _

namespace InRange

theorem adds (h : w.InRange size ahead) (ha : w.Adds a v) (hlevel : v.level ≤ ahead)
    (hsize : Position.bytes v.text.toList ≤ size) : v.InRange size ahead where
  position := by
    rw [ha.position, ha.indentation, ha.text, h.position, Position.ofText_append]
  level := hlevel
  fits := hsize
  room := ha.indentation ▸ h.room

/-- What is looked ahead is in the room that is left for it. -/
theorem ahead_le {width n : Nat} (h : n ≤ ahead + 1) : n ≤ (ahead + 1) * (width + 1) :=
  Nat.le_trans h (Nat.le_mul_of_pos_right _ (Nat.succ_pos _))

/-- So is one more tab. -/
theorem width_le (ahead width : Nat) : width + 1 ≤ (ahead + 1) * (width + 1) :=
  Nat.le_mul_of_pos_left _ (Nat.succ_pos _)

/-- What the writer counts is far from the end of a word, even with all that may be due. -/
theorem counts (h : w.InRange size ahead) {n : Nat}
    (hn : n ≤ (ahead + 1) * (w.indentation.width + 1)) :
    w.position.virtualColumn + n ≤ longest ∧ w.position.column + n ≤ longest ∧
      w.position.offset + n ≤ longest := by
  have hroom : size * (w.indentation.width + 1) + (ahead + 1) * (w.indentation.width + 1) ≤
      longest := by
    rw [← Nat.add_mul, ← Nat.add_assoc]
    exact h.room
  have hsize := Nat.mul_le_mul_right (w.indentation.width + 1) h.fits
  have hbytes : Position.bytes w.text.toList ≤
      Position.bytes w.text.toList * (w.indentation.width + 1) :=
    Nat.le_mul_of_pos_right _ (Nat.succ_pos _)
  have hvirtual := Position.virtualColumn_le_bytes w.indentation.width w.text.toList
  have hcolumn := Position.column_le_bytes w.indentation.width w.text.toList
  have hoffset : (Position.ofText w.indentation.width w.text.toList).offset =
      Position.bytes w.text.toList := rfl
  rw [← h.position] at hvirtual hcolumn hoffset
  omega

theorem line_lt (h : w.InRange size ahead) : w.position.line + 1 < words := by
  have hline := Position.line_le_bytes w.indentation.width w.text.toList
  have hoffset := (h.counts (Nat.zero_le _)).2.2
  have hbytes : w.position.offset = Position.bytes w.text.toList := by
    rw [h.position]
    rfl
  have hroom := Machine.longest_lt_words
  rw [← h.position] at hline
  omega

end InRange

theorem put?_inRange (h : w.InRange size ahead)
    (hsize : Position.bytes (w.put c).text.toList ≤ size) : w.put? m c = some (w.put c) := by
  have hwidth : (if c = '\t' then w.indentation.width else 1) ≤
      (ahead + 1) * (w.indentation.width + 1) := by
    have := InRange.width_le ahead w.indentation.width
    split <;> omega
  have hstep : w.position.step? m w.indentation.width c =
      some (w.position.step w.indentation.width c) := by
    have hcolumn := (h.counts (InRange.ahead_le (Nat.succ_pos ahead))).2.1
    have hvirtual := (h.counts hwidth).1
    unfold Position.step? Position.step
    split
    · rw [Machine.fit_of_lt h.line_lt]
      rfl
    · rw [Machine.fit_of_le hcolumn, Machine.fit_of_le hvirtual]
      rfl
  have hoffset : (w.put c).position.offset ≤ longest :=
    ((h.adds (w.put_adds c) h.level hsize).counts (Nat.zero_le _)).2.2
  rw [put?, hstep]
  exact if_pos hoffset

theorem putMany?_inRange {n : Nat} (h : w.InRange size ahead)
    (hsize : Position.bytes (w.putMany c n).text.toList ≤ size) :
    w.putMany? m c n = some (w.putMany c n) := by
  induction n generalizing w with
  | zero => rfl
  | succ n ih =>
    have hput := Nat.le_trans (putMany_adds (w.put c) c n).bytes_le hsize
    rw [putMany?, put?_inRange h hput]
    exact ih (h.adds (w.put_adds c) h.level hput) hsize

theorem newline?_inRange (h : w.InRange size ahead)
    (hsize : Position.bytes w.newline.text.toList ≤ size) : w.newline? m = some w.newline := by
  rw [newline?, put?_inRange h hsize]
  rfl

/-- The indentation of a line is in range, written or not. -/
theorem InRange.indentation (h : w.InRange size ahead) :
    w.level * w.indentation.width ≤ (ahead + 1) * (w.indentation.width + 1) ∧
      w.level ≤ (ahead + 1) * (w.indentation.width + 1) := by
  have hlevel : w.level ≤ ahead + 1 := Nat.le_succ_of_le h.level
  exact ⟨Nat.mul_le_mul hlevel (Nat.le_succ _), ahead_le hlevel⟩

theorem settle?_inRange (h : w.InRange size ahead)
    (hsize : Position.bytes w.settle.text.toList ≤ size) : w.settle? m = some w.settle := by
  have hspaces := (h.counts h.indentation.1).2.2
  have htabs := (h.counts h.indentation.2).2.2
  have hfill : w.indentation.fill? m w.level = some (w.indentation.fill w.level) := by
    unfold Indentation.fill? Indentation.fill
    split
    · rfl
    · rw [Machine.fit_of_le (by omega)]
      rfl
  have hcount : (w.indentation.fill w.level).1 ≤ longest := by
    unfold Indentation.fill
    split <;> simp only <;> omega
  unfold settle? settle at *
  split
  · next hstart =>
    rw [if_pos hstart] at hsize
    rw [hfill]
    simp only [Option.bind_eq_bind, Option.bind_some, if_pos hcount]
    rw [putMany?_inRange h hsize]
    rfl
  · rfl

theorem writeChar?_inRange (h : w.InRange size ahead)
    (hsize : Position.bytes (w.writeChar c).text.toList ≤ size) :
    w.writeChar? m c = some (w.writeChar c) := by
  unfold writeChar? writeChar at *
  split
  · next hc =>
    rw [if_pos hc] at hsize
    exact newline?_inRange h hsize
  · next hc =>
    rw [if_neg hc] at hsize
    have hsettle := Nat.le_trans (put_adds w.settle c).bytes_le hsize
    rw [settle?_inRange h hsettle]
    exact put?_inRange (h.adds w.settle_adds (w.level_settle ▸ h.level) hsettle) hsize

/-- What grows keeps its level. -/
theorem InRange.grows (h : w.InRange size ahead) (hv : w.Grows a v)
    (hsize : Position.bytes v.text.toList ≤ size) : v.InRange size ahead :=
  h.adds hv.toAdds (hv.level ▸ h.level) hsize

theorem writeChars?_inRange (h : w.InRange size ahead)
    (hsize : Position.bytes (w.writeChars text).text.toList ≤ size) :
    w.writeChars? m text = some (w.writeChars text) := by
  induction text generalizing w with
  | nil => rfl
  | cons c more ih =>
    obtain ⟨a, hchar⟩ := writeChar_grows w c
    obtain ⟨b, hmore⟩ := writeChars_grows (w.writeChar c) more
    have hfirst := Nat.le_trans hmore.bytes_le hsize
    rw [writeChars?, List.foldlM_cons, writeChar?_inRange h hfirst]
    exact ih (h.grows hchar hfirst) hsize

theorem write?_inRange {s : String} (h : w.InRange size ahead)
    (hsize : Position.bytes (w.write s).text.toList ≤ size) : w.write? m s = some (w.write s) :=
  writeChars?_inRange h hsize

theorem writeLine?_inRange {s : String} (h : w.InRange size ahead)
    (hsize : Position.bytes (w.writeLine s).text.toList ≤ size) :
    w.writeLine? m s = some (w.writeLine s) := by
  have hwrite := Nat.le_trans (newline_grows (w.write s)).bytes_le hsize
  obtain ⟨a, ha⟩ := w.writeChars_grows s.toList
  rw [writeLine?, write?_inRange h hwrite]
  exact newline?_inRange (h.grows ha hwrite) hsize

theorem blankLines?_inRange {count : Nat} (h : w.InRange size ahead)
    (hsize : Position.bytes (w.blankLines count).text.toList ≤ size) :
    w.blankLines? m count = some (w.blankLines count) := by
  induction count generalizing w with
  | zero => rfl
  | succ count ih =>
    obtain ⟨a, hmore⟩ := blankLines_grows w.newline count
    have hfirst := Nat.le_trans hmore.bytes_le hsize
    rw [blankLines?, newline?_inRange h hfirst]
    exact ih (h.grows w.newline_grows hfirst) hsize

theorem ensureLineStart?_inRange (h : w.InRange size ahead)
    (hsize : Position.bytes w.ensureLineStart.text.toList ≤ size) :
    w.ensureLineStart? m = some w.ensureLineStart := by
  unfold ensureLineStart? ensureLineStart at *
  split
  · rfl
  · next hstart =>
    rw [if_neg hstart] at hsize
    exact newline?_inRange h hsize

theorem InRange.ahead_lt (h : w.InRange size ahead) : ahead < words := by
  have hroom := Machine.longest_lt_words
  have hcounts := (h.counts (ahead_le (Nat.le_succ ahead))).2.2
  omega

theorem indent?_inRange (h : w.InRange size ahead) (hlevel : w.level < ahead) :
    w.indent? m = some w.indent := by
  rw [indent?, Machine.fit_of_lt (Nat.lt_of_le_of_lt hlevel h.ahead_lt)]
  rfl

theorem nextPosition?_inRange (h : w.InRange size ahead) :
    w.nextPosition? m = some w.nextPosition := by
  obtain ⟨hvirtual, hcolumn, hoffset⟩ := h.counts h.indentation.1
  obtain ⟨-, hcolumn', hoffset'⟩ := h.counts h.indentation.2
  have hcolumns : m.fit (w.level * w.indentation.width) = some (w.level * w.indentation.width) :=
    Machine.fit_of_le (by omega)
  have hsum : m.fit (w.position.virtualColumn + w.level * w.indentation.width) =
      some (w.position.virtualColumn + w.level * w.indentation.width) :=
    Machine.fit_of_le hvirtual
  unfold nextPosition? nextPosition Indentation.fill
  split
  · rw [hcolumns]
    cases w.indentation.useTabs with
    | true =>
      simp only [Option.bind_eq_bind, Option.bind_some, if_true, hsum,
        Machine.fit_of_le hcolumn', Machine.fit_of_le hoffset']
      rfl
    | false =>
      simp only [Option.bind_eq_bind, Option.bind_some, Bool.false_eq_true, if_false, hsum,
        Machine.fit_of_le hcolumn, Machine.fit_of_le hoffset]
      rfl
  · rfl

theorem text_endList (w : Writer) (owned : Bool) : (w.endList owned).text = w.text := by
  unfold endList
  split <;> rfl

theorem beginList?_inRange (h : w.InRange size ahead) : w.beginList? m = some w.beginList := by
  unfold beginList? beginList
  cases w.alignment with
  | some column => rfl
  | none =>
    rw [nextPosition?_inRange h]
    rfl

theorem Loop.adds {condition : Writer → Prop} (h : Loop condition c w v) :
    ∃ added, w.Adds added v ∧ v.level = w.level := by
  induction h with
  | stop => exact ⟨[], .refl _, rfl⟩
  | step _ _ ih =>
    obtain ⟨added, hadds, hlevel⟩ := ih
    exact ⟨_, (put_adds _ c).trans hadds, hlevel⟩

/-- A loop whose tests are given in range comes to its end there. -/
theorem Loop.inRange {condition : Writer → Prop} [DecidablePred condition]
    {test : Writer → Option Bool} (hloop : Loop condition c w v) (h : w.InRange size ahead)
    (hsize : Position.bytes v.text.toList ≤ size)
    (htest : ∀ u : Writer, u.InRange size ahead → test u = some (decide (condition u))) :
    w.putWhile? m c test = some v := by
  induction hloop with
  | @stop w hw => exact putWhile?_of_false ((htest w h).trans (congrArg some (decide_eq_false hw)))
  | @step w v hw hmore ih =>
    obtain ⟨added, hadds, -⟩ := hmore.adds
    have hput := Nat.le_trans hadds.bytes_le hsize
    rw [putWhile?_of_true ((htest w h).trans (congrArg some (decide_eq_true hw))),
      put?_inRange h hput]
    exact ih (h.adds (w.put_adds c) h.level hput) hsize

/-- Padding comes to its end if there is room for what it adds. -/
theorem padTo?_inRange {column : Nat} (h : w.InRange size ahead)
    (hsize : Position.bytes (w.padTo column).text.toList ≤ size) :
    w.padTo? m column = some (w.padTo column) := by
  obtain ⟨tabbed, spaced, htabs, hspaces, hpad⟩ := w.pads_padTo column
  rw [hpad] at hsize ⊢
  obtain ⟨b, hb, -⟩ := hspaces.adds
  have htabbed := Nat.le_trans hb.bytes_le hsize
  have hfirst : w.padTabs? m column = some tabbed ∧ tabbed.InRange size ahead := by
    unfold padTabs?
    split at htabs
    · next htabs' =>
      obtain ⟨a, ha, hlevel⟩ := htabs.adds
      rw [if_pos htabs']
      refine ⟨htabs.inRange h htabbed fun u hu => ?_, h.adds ha (hlevel ▸ h.level) htabbed⟩
      have hwidth := Nat.le_of_succ_le (InRange.width_le ahead u.indentation.width)
      rw [tabFits?, Machine.fit_of_le (hu.counts hwidth).1]
      rfl
    · next htabs' =>
      subst htabs
      exact ⟨if_neg htabs', h⟩
  have hsecond : tabbed.putWhile? m ' '
      (fun u => some (decide (u.position.virtualColumn < column))) = some spaced :=
    hspaces.inRange hfirst.2 hsize fun u _ => rfl
  rw [padTo?, hfirst.1, Option.bind_eq_bind, Option.bind_some, hsecond]
  rfl

theorem writeSeparator?_inRange {s : String} {threshold column : Nat}
    (h : w.InRange size ahead) (hs : s.length ≤ ahead)
    (hsize : Position.bytes (w.writeSeparator s threshold column).1.text.toList ≤ size) :
    w.writeSeparator? m s threshold column = some (w.writeSeparator s threshold column) := by
  have hstop := (h.counts (InRange.ahead_le (Nat.le_succ_of_le hs))).1
  rw [writeSeparator?, Machine.fit_of_le hstop]
  unfold writeSeparator at *
  split
  · next hstop =>
    rw [if_pos hstop] at hsize
    rw [Option.bind_eq_bind, Option.bind_some, if_pos hstop, write?_inRange h hsize]
    rfl
  · next hstop =>
    rw [if_neg hstop] at hsize
    obtain ⟨a, ha⟩ := w.writeChars_grows (trimEnd s.toList)
    obtain ⟨b, hb⟩ := padTo_adds (w.writeChars (trimEnd s.toList)).newline column
    have hline := Nat.le_trans hb.bytes_le hsize
    have htrim := Nat.le_trans (newline_grows (w.writeChars (trimEnd s.toList))).bytes_le hline
    have hu := h.grows ha htrim
    have hu' := hu.grows (newline_grows _) hline
    simp only [Option.bind_eq_bind, Option.bind_some, if_neg hstop, writeChars?_inRange h htrim,
      newline?_inRange hu hline, padTo?_inRange hu' hsize, Option.pure_def]

end Writer

/-! ### Operations -/

namespace WriterOp

variable {m : Machine} {size ahead : Nat} {w : Writer} {op : WriterOp} {ops : List WriterOp}

/-- How far an operation looks ahead of what it writes. -/
def slack : WriterOp → Nat
  | .indent => 1
  | .separator text .. => text.length
  | .write _ | .writeLine _ | .newline | .blankLines _ | .space | .dedent | .padTo _ | .beginList
  | .endList _ => 0

/-- How far operations look ahead, one after the other. -/
def slackAll : List WriterOp → Nat
  | [] => 0
  | op :: ops => op.slack + slackAll ops

theorem level_run_le (w : Writer) (op : WriterOp) : (op.run w).1.level ≤ w.level + op.slack := by
  cases op with
  | write text | space =>
    obtain ⟨a, h⟩ := w.writeChars_grows _
    exact Nat.le_of_eq h.level
  | writeLine text =>
    obtain ⟨a, h⟩ := w.writeChars_grows text.toList
    exact Nat.le_of_eq h.level
  | newline | indent => exact Nat.le_refl _
  | blankLines count =>
    obtain ⟨a, h⟩ := w.blankLines_grows count
    exact Nat.le_of_eq h.level
  | dedent => exact Nat.sub_le _ _
  | padTo column => exact Nat.le_of_eq (w.level_padTo column)
  | beginList => exact Nat.le_of_eq w.beginList_grows.level
  | endList owned => exact Nat.le_of_eq (w.endList_grows owned).level
  | separator text threshold column =>
    obtain ⟨a, h⟩ := w.writeSeparator_grows text threshold column
    exact Nat.le_trans (Nat.le_of_eq h.level) (Nat.le_add_right _ _)

theorem run?_inRange (h : w.InRange size ahead) (hslack : w.level + op.slack ≤ ahead)
    (hsize : Position.bytes (op.run w).1.text.toList ≤ size) : op.run? m w = some (op.run w) := by
  cases op with
  | write text => rw [run?, Writer.write?_inRange h hsize]; rfl
  | space => rw [run?, Writer.write?_inRange h hsize]; rfl
  | writeLine text => rw [run?, Writer.writeLine?_inRange h hsize]; rfl
  | newline => rw [run?, Writer.newline?_inRange h hsize]; rfl
  | blankLines count => rw [run?, Writer.blankLines?_inRange h hsize]; rfl
  | indent => rw [run?, Writer.indent?_inRange h hslack]; rfl
  | dedent | endList owned => rfl
  | padTo column => rw [run?, Writer.padTo?_inRange h hsize]; rfl
  | beginList => rw [run?, Writer.beginList?_inRange h]; rfl
  | separator text threshold column =>
    rw [run?, Writer.writeSeparator?_inRange h (Nat.le_trans (Nat.le_add_left _ _) hslack) hsize]
    rfl

/-- Where the text that operations come to leaves room, every machine performs them. -/
theorem runAll?_of_inRange (h : w.InRange size ahead)
    (hslack : w.level + slackAll ops ≤ ahead)
    (hsize : Position.bytes (runAll w ops).text.toList ≤ size) :
    runAll? m w ops = some (runAll w ops) := by
  induction ops generalizing w with
  | nil => rfl
  | cons op ops ih =>
    rw [slackAll] at hslack
    obtain ⟨a, ha⟩ := op.run_adds w
    obtain ⟨b, hb⟩ := runAll_adds ops (op.run w).1
    have hfirst := Nat.le_trans hb.bytes_le hsize
    have hlevel := level_run_le w op
    have hnext : (op.run w).1.InRange size ahead := h.adds ha (by omega) hfirst
    have hrest : (op.run w).1.level + slackAll ops ≤ ahead := by omega
    rw [runAll?, List.foldlM_cons, run?_inRange h (by omega) hfirst]
    exact ih hnext hrest hsize

/-- The operations of a new writer are in range: the text that they come to, with what they look
ahead, is far shorter than the longest one, even if every character were as wide as a tab. -/
def InRange (i : Indentation) (ops : List WriterOp) : Prop :=
  (Position.bytes (runAll (.new i) ops).text.toList + slackAll ops + 1) *
    (i.width + 1) ≤ longest

instance (i : Indentation) (ops : List WriterOp) : Decidable (InRange i ops) :=
  inferInstanceAs (Decidable (_ ≤ _))

/-- No machine aborts operations in range. -/
theorem runAll?_inRange {i : Indentation} (m : Machine) (h : InRange i ops) :
    runAll? m (.new i) ops = some (runAll (.new i) ops) :=
  runAll?_of_inRange ⟨rfl, Nat.zero_le _, Nat.zero_le _, h⟩ (Nat.le_of_eq (Nat.zero_add _))
    (Nat.le_refl _)

/-- In range, no machine answers the last operation otherwise than the writer does. -/
theorem run?_last {i : Indentation} (m : Machine) (h : InRange i (ops ++ [op])) :
    runAll? m (.new i) ops = some (runAll (.new i) ops) ∧
      op.run? m (runAll (.new i) ops) = some (op.run (runAll (.new i) ops)) := by
  have hall := runAll?_inRange .checked h
  rw [runAll?, List.foldlM_append] at hall
  obtain ⟨w, hw, hlast⟩ := Option.bind_eq_some_iff.1 hall
  obtain ⟨rfl, hops⟩ := (runAll?_exact (.new i) ops).eq_of_checked hw
  obtain ⟨v, hop, -⟩ := Option.bind_eq_some_iff.1 hlast
  obtain ⟨⟨v, answer⟩, hrun, rfl⟩ := Option.map_eq_some_iff.1 hop
  exact ⟨hops m, ((op.run?_exact _).eq_of_checked hrun).2 m⟩

end WriterOp

/-! ### Documents -/

namespace Doc

/-- How far a document looks ahead of what it writes: over its levels of indentation, and over a
separator. -/
def slack : Doc → Option TypeScope → Nat
  | empty, _ | text _, _ | newline, _ | lineStart, _ | typeGap, _ | malformed _, _ => 0
  | separator s, _ => s.length
  | append first second, scope => max (first.slack scope) (second.slack scope)
  | nested body, scope => body.slack scope + 1
  | aligned body, scope | node _ body, scope | synthetic _ body, scope
  | unsupported _ body, scope => body.slack scope
  | inside inner body, _ => body.slack (some inner)
  | perScope body, scope => (body scope).slack scope

variable {m : Machine} {options : Options} {d : Doc} {column size ahead : Nat} {p : Pass}

/-- A run adds to the text, also one that fails. -/
theorem run_adds (options : Options) (d : Doc) (column : Nat) (p : Pass) :
    ∃ added, p.writer.Adds added (d.run options column p).pass.writer := by
  rw [run_operations]
  exact WriterOp.runAll_adds _ _

theorem bytes_le_run (options : Options) (d : Doc) (column : Nat) (p : Pass) :
    Position.bytes p.writer.text.toList ≤
      Position.bytes (d.run options column p).pass.writer.text.toList := by
  obtain ⟨added, h⟩ := run_adds options d column p
  exact h.bytes_le

/-- After a run that does not fail the writer is in range and at its level. -/
theorem inRange_run (hp : p.writer.InRange size ahead)
    (hdone : (d.run options column p).failure = none)
    (hsize : Position.bytes (d.run options column p).pass.writer.text.toList ≤ size) :
    (d.run options column p).pass.writer.InRange size ahead ∧
      (d.run options column p).pass.writer.level = p.writer.level := by
  obtain ⟨f, hruns⟩ := runs_of_done d column p hdone
  obtain ⟨added, hgrows⟩ := hruns.grows
  exact ⟨hp.grows hgrows hsize, hgrows.level⟩

/-- Where the text that a run comes to leaves room, every machine makes the run. -/
theorem run?_inRange (hp : p.writer.InRange size ahead)
    (hlevel : p.writer.level + d.slack p.scope ≤ ahead)
    (hsize : Position.bytes (d.run options column p).pass.writer.text.toList ≤ size) :
    d.run? m options column p = some (d.run options column p) := by
  induction d generalizing column p with
  | empty | malformed => rfl
  | append first second ih ih' =>
    have hfirst : p.writer.level + first.slack p.scope ≤ ahead :=
      Nat.le_trans (Nat.add_le_add_left (Nat.le_max_left _ _) _) hlevel
    have hsecond : p.writer.level + second.slack p.scope ≤ ahead :=
      Nat.le_trans (Nat.add_le_add_left (Nat.le_max_right _ _) _) hlevel
    simp only [run, Outcome.andThen] at hsize ⊢
    cases hdone : (first.run options column p).failure with
    | some e =>
      rw [hdone] at hsize
      rw [run?, ih hp hfirst hsize, Option.bind_eq_bind, Option.bind_some, hdone]
    | none =>
      rw [hdone] at hsize
      have hmiddle := Nat.le_trans (bytes_le_run options second column _) hsize
      obtain ⟨hq, hq'⟩ := inRange_run hp hdone hmiddle
      rw [run?, ih hp hfirst hmiddle, Option.bind_eq_bind, Option.bind_some, hdone]
      refine ih' hq ?_ hsize
      rw [hq', run_scope]
      exact hsecond
  | text s =>
    rw [run?, Pass.mapWriter?, Writer.write?_inRange hp hsize]
    rfl
  | newline =>
    rw [run?, Pass.mapWriter?, Writer.newline?_inRange hp hsize]
    rfl
  | lineStart =>
    rw [run?, Pass.mapWriter?, Writer.ensureLineStart?_inRange hp hsize]
    rfl
  | typeGap =>
    rw [run?, Pass.mapWriter?, Writer.blankLines?_inRange hp hsize]
    rfl
  | separator s =>
    have hs : s.length ≤ ahead := Nat.le_trans (Nat.le_add_left _ _) hlevel
    rw [run?, Pass.mapWriter?, Writer.writeSeparator?_inRange hp hs hsize]
    rfl
  | nested body ih =>
    have hlt : p.writer.level < ahead := by
      rw [Doc.slack] at hlevel
      omega
    have hdeeper : (p.mapWriter (·.indent)).writer.InRange size ahead :=
      hp.adds ⟨rfl, (List.append_nil _).symm, rfl⟩ hlt hp.fits
    have hbody : (body.run options column (p.mapWriter (·.indent))).pass.writer.text =
        ((nested body).run options column p).pass.writer.text :=
      (Outcome.read_onDone (·.writer.text) (f := (·.mapWriter (·.dedent))) _ fun _ => rfl).symm
    rw [run?, Pass.mapWriter?, Writer.indent?_inRange hp hlt]
    simp only [Option.bind_eq_bind, Option.bind_some, Option.pure_def]
    rw [show ({ p with writer := p.writer.indent } : Pass) = p.mapWriter (·.indent) from rfl,
      ih hdeeper ?_ (hbody ▸ hsize)]
    · rfl
    · rw [Doc.slack] at hlevel
      show p.writer.level + 1 + body.slack p.scope ≤ ahead
      omega
  | aligned body ih =>
    obtain ⟨w, start, owned, hbegin⟩ : ∃ w start owned, p.writer.beginList = (w, start, owned) :=
      ⟨_, _, _, rfl⟩
    have hgrows : p.writer.Grows [] w := by
      have h := p.writer.beginList_grows
      rwa [hbegin] at h
    have hw : w.InRange size ahead := hp.grows hgrows (by
      rw [hgrows.text, List.append_nil]
      exact hp.fits)
    rw [run?, Writer.beginList?_inRange hp, hbegin]
    simp only [run, hbegin] at hsize ⊢
    have hended : ∀ o : Outcome, (o.onDone (·.mapWriter (·.endList owned))).pass.writer.text =
        o.pass.writer.text := fun o =>
      o.read_onDone (·.writer.text) fun q => q.writer.text_endList owned
    rw [hended] at hsize
    have hbody := @ih start { p with writer := w } hw (hgrows.level ▸ hlevel) hsize
    simp only [Option.bind_eq_bind, Option.bind_some, hbody, Option.pure_def]
  | node key body ih =>
    have hbody := @ih column (p.enter key).2 hp hlevel hsize
    rw [run?, Pass.enter?, Writer.nextPosition?_inRange hp]
    simp only [Option.bind_eq_bind, Option.bind_some, hbody, Option.pure_def]
    rfl
  | synthetic key body ih =>
    have hbody := @ih column (p.markSynthetic key) (by simpa using hp)
      (by simpa [Doc.slack] using hlevel) (by simpa [run, Outcome.mapPass] using hsize)
    rw [run?, hbody]
    rfl
  | inside scope body ih =>
    have hbody := @ih column (p.pushScope scope) hp hlevel hsize
    rw [run?, hbody]
    rfl
  | perScope body ih => exact ih p.scope hp hlevel hsize
  | unsupported gap remark ih =>
    simp only [run, run?] at hsize ⊢
    split
    · rfl
    · next hstrict =>
      rw [if_neg hstrict] at hsize
      exact ih hp hlevel hsize

/-- The text that the document comes to, with what it looks ahead, is far shorter than the longest
one, even if every character were as wide as a tab. -/
def InRange (d : Doc) (options : Options) : Prop :=
  (Position.bytes (d.write options (.initial options)).pass.writer.text.toList + d.slack none + 1) *
    (options.tabSize + 1) ≤ longest

instance (d : Doc) (options : Options) : Decidable (d.InRange options) :=
  inferInstanceAs (Decidable (_ ≤ _))

/-- No machine aborts the rendering of a document in range. -/
theorem render?_inRange (m : Machine) (h : d.InRange options) :
    d.render? m options = some (d.render options) := by
  have hstart : (Pass.initial options).writer.InRange
      (Position.bytes (d.write options (.initial options)).pass.writer.text.toList)
      (d.slack none) := ⟨rfl, Nat.zero_le _, Nat.zero_le _, h⟩
  have hrun : d.run? m options 0 (.initial options) = some (d.run options 0 (.initial options)) :=
    run?_inRange hstart (Nat.le_of_eq (Nat.zero_add _)) (Nat.le_refl _)
  rw [render?, Doc.write?, hrun, render_eq]
  simp only [Option.bind_eq_bind, Option.bind_some]
  cases (d.run options 0 (.initial options)).failure <;> rfl

end Doc

/-- The rendering of a request is in range. -/
def Request.InRange (l : Language) (options : Options) (r : Request) : Prop :=
  (r.document l options).InRange options

instance (l : Language) (options : Options) (r : Request) : Decidable (r.InRange l options) :=
  inferInstanceAs (Decidable (Doc.InRange _ _))

theorem Request.render?_inRange {l : Language} {options : Options} {r : Request} (m : Machine)
    (h : r.InRange l options) : r.render? m l options = some (r.render l options) :=
  Doc.render?_inRange m h

/-- A machine aborts a rendering out of range only. -/
theorem Request.not_inRange_of_aborted {m : Machine} {l : Language} {options : Options}
    {r : Request} (h : r.render? m l options = none) : ¬r.InRange l options := fun hrange =>
  absurd (h.symm.trans (render?_inRange m hrange)) nofun

end SourcePrinter
