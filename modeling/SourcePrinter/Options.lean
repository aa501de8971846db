import SourcePrinter.Text.Writer

/-! The options of a rendering. Those that choose words are kept apart from those that only lay
the words out or say what happens to what a language cannot express. Their numbers may have any
size; those that are set are words of a machine, and a rendering under them is what it is here
wherever it is in range (`Request.render?_inRange`). -/

namespace SourcePrinter

/-- The options of a rendering. -/
structure Options where
  /-- Dotted names are written as their last segment. -/
  omitNamespaces : Bool
  /-- The virtual column past which lists wrap. -/
  wrapColumn : Nat
  /-- Characters outside ASCII stay as they are in literals. -/
  preserveUnicode : Bool
  useTabs : Bool
  /-- Spaces in a level of indentation, and columns of a tab. -/
  tabSize : Nat
  /-- What a language cannot express is an error and not a remark. -/
  strict : Bool
  /-- Blank lines between the types of a unit. -/
  typeGap : Nat
  deriving DecidableEq, Repr

namespace Options

/-- The options in force when nothing was set. -/
def initial : Options :=
  { omitNamespaces := false, wrapColumn := 2048, preserveUnicode := false, useTabs := false,
    tabSize := 4, strict := false, typeGap := 1 }

/-- The look of the indentation. -/
def indentation (o : Options) : Indentation := ⟨o.useTabs, o.tabSize⟩

end Options

/-- A change of one option. -/
inductive OptionChange where
  | omitNamespaces (value : Bool)
  | wrapColumn (value : UInt64)
  | preserveUnicode (value : Bool)
  | useTabs (value : Bool)
  | tabSize (value : UInt64)
  | strict (value : Bool)
  | typeGap (value : UInt64)
  deriving DecidableEq, Repr

namespace Options

/-- The options after a change. -/
def set (o : Options) : OptionChange → Options
  | .omitNamespaces value => { o with omitNamespaces := value }
  | .wrapColumn value => { o with wrapColumn := value.toNat }
  | .preserveUnicode value => { o with preserveUnicode := value }
  | .useTabs value => { o with useTabs := value }
  | .tabSize value => { o with tabSize := value.toNat }
  | .strict value => { o with strict := value }
  | .typeGap value => { o with typeGap := value.toNat }

end Options

end SourcePrinter
