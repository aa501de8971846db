import SourcePrinter.Doc.Run
import SourcePrinter.Text.Machine

/-! Writing a document on a machine, which may abort. -/

namespace SourcePrinter

namespace Pass

def mapWriter? (p : Pass) (f : Writer → Option Writer) : Option Pass := do
  let writer ← f p.writer
  return { p with writer }

/-- Enters a node, whose position is that of the first character that it would write. -/
def enter? (m : Machine) (p : Pass) (key : NodeKey) : Option (Visit × Pass) := do
  let pending ← p.writer.nextPosition? m
  let (visit, entered) := p.enter key
  return ({ visit with pending }, entered)

end Pass

namespace Doc

/-- Writes a document. Separators break to `column`, where the list around them began. -/
def run? (m : Machine) (options : Options) : Doc → Nat → Pass → Option Outcome
  | empty, _, p => some (.done p)
  | append first second, column, p => do
    let o ← first.run? m options column p
    match o.failure with
    | none => second.run? m options column o.pass
    | some _ => some o
  | text s, _, p => (p.mapWriter? (·.write? m s)).map .done
  | newline, _, p => (p.mapWriter? (·.newline? m)).map .done
  | lineStart, _, p => (p.mapWriter? (·.ensureLineStart? m)).map .done
  | typeGap, _, p => (p.mapWriter? (·.blankLines? m options.typeGap)).map .done
  | nested body, column, p => do
    let deeper ← p.mapWriter? (·.indent? m)
    let o ← body.run? m options column deeper
    return o.onDone (·.mapWriter (·.dedent))
  | aligned body, _, p => do
    let (writer, column, owned) ← p.writer.beginList? m
    let o ← body.run? m options column { p with writer }
    return o.onDone (·.mapWriter (·.endList owned))
  | separator s, column, p =>
    (p.mapWriter? fun w => (w.writeSeparator? m s options.wrapColumn column).map (·.1)).map .done
  | node key body, column, p => do
    let (visit, entered) ← p.enter? m key
    let o ← body.run? m options column entered
    return o.mapPass (·.leave visit o.failure.isSome)
  | synthetic key body, column, p => do
    let o ← body.run? m options column (p.markSynthetic key)
    return o.mapPass (·.unmarkSynthetic key (p.synthetic.contains key))
  | inside scope body, column, p => do
    let o ← body.run? m options column (p.pushScope scope)
    return o.mapPass Pass.popScope
  | perScope body, column, p => (body p.scope).run? m options column p
  | unsupported gap remark, column, p =>
    if options.strict then some ⟨p, some (.unsupported gap)⟩
    else remark.run? m options column p
  | malformed detail, _, p => some ⟨p, some (.malformed detail)⟩

/-- Writes a document outside any list. -/
def write? (m : Machine) (d : Doc) (options : Options) (p : Pass) : Option Outcome :=
  d.run? m options 0 p

end Doc

end SourcePrinter
