import SourcePrinter.Doc.Pass

/-! Writing a document: every part changes the state in turn, and the first error ends it. -/

namespace SourcePrinter

namespace Doc

/-- Writes a document. Separators break to `column`, where the list around them began. On an error
a list in progress keeps its column and a level of indentation stays; what surrounds the place is
as it was before. -/
def run (options : Options) : Doc → Nat → Pass → Outcome
  | empty, _, p => .done p
  | append first second, column, p =>
    (first.run options column p).andThen (second.run options column)
  | text s, _, p => .done (p.mapWriter (·.write s))
  | newline, _, p => .done (p.mapWriter (·.newline))
  | lineStart, _, p => .done (p.mapWriter (·.ensureLineStart))
  | typeGap, _, p => .done (p.mapWriter (·.blankLines options.typeGap))
  | nested body, column, p =>
    (body.run options column (p.mapWriter (·.indent))).onDone (·.mapWriter (·.dedent))
  | aligned body, _, p =>
    let (writer, column, owned) := p.writer.beginList
    (body.run options column { p with writer }).onDone (·.mapWriter (·.endList owned))
  | separator s, column, p =>
    .done (p.mapWriter fun w => (w.writeSeparator s options.wrapColumn column).1)
  | node key body, column, p =>
    let (visit, entered) := p.enter key
    let o := body.run options column entered
    o.mapPass (·.leave visit o.failure.isSome)
  | synthetic key body, column, p =>
    (body.run options column (p.markSynthetic key)).mapPass
      (·.unmarkSynthetic key (p.synthetic.contains key))
  | inside scope body, column, p =>
    (body.run options column (p.pushScope scope)).mapPass Pass.popScope
  | perScope body, column, p => (body p.scope).run options column p
  | unsupported gap remark, column, p =>
    if options.strict then ⟨p, some (.unsupported gap)⟩ else remark.run options column p
  | malformed detail, _, p => ⟨p, some (.malformed detail)⟩

/-- Writes a document outside any list. -/
def write (d : Doc) (options : Options) (p : Pass) : Outcome := d.run options 0 p

end Doc

end SourcePrinter
