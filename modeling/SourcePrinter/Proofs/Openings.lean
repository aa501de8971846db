import SourcePrinter.Proofs.Integers
import SourcePrinter.Proofs.Leads
import SourcePrinter.Proofs.Names

/-! What the text of an expression or a type begins with in C# and Swift: words of the language, a
text of the tree such as a name or a number, or the text of a part. As far as signs go, the document
of a node begins as its opening says. -/

namespace SourcePrinter

open Doc

/-- A plus or a minus. -/
def IsSign (c : Char) : Prop := c = '+' ∨ c = '-'

instance : DecidablePred IsSign := fun c => inferInstanceAs (Decidable (c = '+' ∨ c = '-'))

theorem IsSign.isBlank_eq_false {sign : Char} (h : IsSign sign) : isBlank sign = false := by
  rcases h with rfl | rfl <;> decide

/-- What the text of a node begins with. -/
inductive Opening where
  /-- Words of the language, none of which begins with a sign. -/
  | words
  /-- A text, which may begin with a sign or be empty. -/
  | text (s : String)
  /-- The text of a part, which may be empty. -/
  | part (p : Part)

/-! ### Documents -/

namespace Doc

variable {c : Context} {scope : Option TypeScope} {a b d : Doc} {o : Opening} {x : Char}

/-- In the middle of a line the document begins with a sign only if its opening does. -/
def Begins (c : Context) (scope : Option TypeScope) (d : Doc) : Opening → Prop
  | .words => ∀ sign, IsSign sign → d.lead scope ≠ some sign
  | .text s => ∀ sign, IsSign sign → (d.lead scope = some sign ↔ s.toList.head? = some sign)
  | .part p => ∀ sign, IsSign sign → (d.lead scope = some sign ↔ (p.doc c).lead scope = some sign)

namespace Begins

theorem words (h : d.lead scope = some x) (hx : ¬ IsSign x) : d.Begins c scope .words := by
  rintro sign hsign hlead
  rw [h] at hlead
  exact hx (Option.some_inj.1 hlead ▸ hsign)

theorem nothing (h : d.lead scope = none) : d.Begins c scope .words := by
  rintro sign - hlead
  rw [h] at hlead
  cases hlead

theorem text (s : String) : (Doc.text s).Begins c scope (.text s) := fun _ hsign =>
  leadOf_eq_some hsign.isBlank_eq_false

theorem part (p : Part) : (p.doc c).Begins c scope (.part p) := fun _ _ => Iff.rfl

/-- A document that begins in the same way has the same opening. -/
theorem congr (h : a.Begins c scope o) (hd : ∀ sign, IsSign sign →
    (d.lead scope = some sign ↔ a.lead scope = some sign)) : d.Begins c scope o := by
  cases o with
  | words => exact fun sign hsign hlead => h sign hsign ((hd sign hsign).1 hlead)
  | text s => exact fun sign hsign => (hd sign hsign).trans (h sign hsign)
  | part p => exact fun sign hsign => (hd sign hsign).trans (h sign hsign)

/-- What follows does not matter if it begins with no sign, even where the opening is empty. -/
theorem append (h : a.Begins c scope o) (hb : b.Begins c scope .words) :
    (a ++ b).Begins c scope o := by
  refine h.congr fun sign hsign => ?_
  show (a.lead scope).or (b.lead scope) = some sign ↔ _
  rw [Option.or_eq_some_iff]
  exact or_iff_left fun hlead => hb sign hsign hlead.2

end Begins

/-- The document begins as its opening says, and with some character in any case, so what follows it
does not matter. -/
structure Starts (c : Context) (scope : Option TypeScope) (d : Doc) (o : Opening) : Prop where
  begins : d.Begins c scope o
  writes : (d.lead scope).isSome = true

namespace Starts

theorem words (h : d.lead scope = some x) (hx : ¬ IsSign x) : d.Starts c scope .words :=
  ⟨.words h hx, by rw [h]; rfl⟩

theorem append (h : a.Starts c scope o) (b : Doc) : (a ++ b).Starts c scope o := by
  obtain ⟨x, hx⟩ := Option.isSome_iff_exists.1 h.writes
  have hlead : (a ++ b).lead scope = some x := by
    show (a.lead scope).or (b.lead scope) = some x
    rw [hx]
    rfl
  exact ⟨h.begins.congr fun _ _ => by rw [hlead, hx], by rw [hlead]; rfl⟩

end Starts

/-- Words that begin with no sign end the part of a document that matters. -/
theorem Begins.thenWords (h : a.Begins c scope o) (hb : b.Starts c scope .words) :
    (a ++ b).Starts c scope o := by
  refine ⟨h.append hb.begins, ?_⟩
  show ((a.lead scope).or (b.lead scope)).isSome = true
  rw [Option.isSome_or, hb.writes, Bool.or_true]

end Doc

/-! ### Openings -/

/-- The name of a type in a unit, whose own namespace it does without. -/
def NamedType.nameIn (n : NamedType) (home : Option String) : String :=
  match n.namespaceName, home with
  | some space, some own => if space = own then n.name else n.fullName
  | _, _ => n.fullName

theorem Context.typeName_eq (c : Context) (n : NamedType) :
    c.typeName n = c.identifier (n.nameIn c.setting.localNamespace) := by
  unfold typeName NamedType.nameIn
  cases n.namespaceName with
  | none => rfl
  | some space => cases c.setting.localNamespace <;> rfl

namespace Dialect

variable (d : Dialect) (setting : Setting)

/-- A name as it is written. -/
def name (s : String) : String := (d.naming setting.omitNamespaces).resolve .escaped .ordinary s

def binarySymbol : Dialect → BinaryOperator → Option String
  | csharp => CSharp.binarySymbol
  | swift _ => Swift.binarySymbol

/-- What is written for a member begins with the value whose member it is. -/
def siteOpening (site : Option Expression) (other : Opening) : Opening :=
  match site with
  | some e => .part (.expression e)
  | none => other

/-- What the text of a type begins with. -/
def typeOpening : TypeForm → Opening
  | .named n => .text (d.name setting (n.nameIn setting.localNamespace))
  | .pointer target kind =>
    match d, kind with
    | csharp, .pointer | swift _, .reference => .part (.typeRef target)
    | csharp, .reference | swift _, .pointer => .words
  | .array element _ _ =>
    match d with
    | csharp => .part (.typeRef element)
    | swift _ => .words
  | .kindOf target | .constant target => .part (.typeRef target)
  | .predefined _ | .dictionary .. | .tuple _ | .sequence _ | .inlineBlock _ | .range ..
  | .unknown => .words

/-- What the text of an expression begins with. -/
def expressionOpening : ExpressionForm → Opening
  | .integer value base =>
    match d.baseMark base with
    | some mark => .text (Brace.integerText mark value base)
    | none => .words
  | .float value => if value.isFinite then .text (Brace.floatText value) else .words
  | .identifier name | .localVariable name => .text (d.name setting name)
  | .raw s => .text s
  | .unary operator _ => .text (Brace.unarySymbol operator)
  | .field access => siteOpening access.site (.text (d.name setting access.name))
  | .property access =>
    siteOpening access.site
      (if access.arguments.isEmpty || !access.name.isEmpty then .text (d.name setting access.name)
        else .words)
  | .call call => siteOpening call.site (.text (d.name setting call.name))
  | .element e _ | .typeCheck e _ | .conditional e _ _ => .part (.expression e)
  | .binary lhs operator _ =>
    if (d.binarySymbol operator).isSome then .part (.expression lhs) else .words
  | .typeReference t => .part (.typeRef t)
  | .enumValue t _ =>
    match d with
    | csharp => .part (.typeRef t)
    | swift _ => .part (.typeRefAs .notNullable t)
  | .newInstance t _ =>
    match d with
    | csharp => .words
    | swift _ => .part (.typeRefAs .notNullable t)
  | .typeOf t =>
    match d with
    | csharp => .words
    | swift _ => .part (.typeRef t)
  | .defaultOf t =>
    match d with
    | csharp => .words
    | swift _ =>
      match t.defaultValue with
      | some value => .part (.expression value)
      | none => .words
  | .typeCast cast =>
    match d with
    | csharp => if cast.throws then .words else .part (.expression cast.value)
    | swift _ => .part (.expression cast.value)
  | .range start _ inclusive =>
    match d with
    | csharp => if inclusive then .words else .part (.expression start)
    | swift _ => .part (.expression start)
  | .dereference e =>
    match d with
    | csharp => .words
    | swift _ => .part (.expression e)
  | .nil | .boolean _ | .string _ | .character _ | .array .. | .dictionary _ | .tuple _
  | .selfReference | .inherited | .result | .sizeOf _ | .parentheses _ | .await _ | .addressOf _
  | .anonymousMethod _ => .words

/-- What the text of a part begins with, as far as it is an expression or a type. -/
def opening : Part → Opening
  | .expression e => d.expressionOpening setting e.form
  | .typeRef t | .typeRefAs _ t => d.typeOpening setting t.form
  | .parameter _ | .statement _ | .body _ | .member _ | .definition _ => .words

/-- A context writes names and remarks as the dialect does. -/
structure Words (c : Context) : Prop where
  naming : c.naming = d.naming setting.omitNamespaces
  setting : c.setting = setting
  remark : c.remark = Brace.inlineComment

theorem context_words (depth : Nat) : d.Words setting (d.language.context setting depth) where
  naming := d.naming_context setting depth
  setting := by
    induction depth with
    | zero => rfl
    | succ depth ih => exact ih
  remark := (d.language.context_speaks setting depth).remark.trans d.braces.inlineComment

end Dialect

/-! ### Rules that the dialects share -/

namespace Brace

variable {c : Context} {scope : Option TypeScope}

theorem site_begins {owner : Option Expression} {nullSafe : Bool} {a : Doc} {o : Opening}
    (ha : a.Begins c scope o) :
    (site c owner nullSafe ++ a).Begins c scope (Dialect.siteOpening owner o) := by
  cases owner with
  | none => exact ha.congr fun _ _ => Iff.rfl
  | some e =>
    have hdot : (text (if nullSafe then "?." else ".")).Starts c scope .words := by
      cases nullSafe
      · exact .words rfl (by decide)
      · exact .words rfl (by decide)
    exact (((Begins.part (.expression e)).thenWords hdot).append a).begins

theorem genericArguments_begins (types : List TypeRef) :
    (genericArguments c types).Begins c scope .words := by
  unfold genericArguments
  cases types with
  | nil => exact .nothing rfl
  | cons t more => exact .words rfl (by decide)

theorem element_begins (array : Expression) (indices : List Expression) :
    (element c array indices).Begins c scope (.part (.expression array)) := by
  have hopen : (text "[").Starts c scope .words := .words rfl (by decide)
  exact ((((Begins.part (.expression array)).thenWords hopen).append _).append _).begins

theorem conditional_begins (condition ifTrue ifFalse : Expression) :
    (conditional c condition ifTrue ifFalse).Begins c scope (.part (.expression condition)) := by
  have hmark : (text " ? ").Starts c scope .words := .words rfl (by decide)
  have hcondition := (Begins.part (.expression condition)).thenWords hmark
  exact (((hcondition.append _).append _).append _).begins

theorem unary_begins (operator : UnaryOperator) (value : Expression) :
    (unary c operator value).Begins c scope (.text (unarySymbol operator)) := by
  have hsymbol : (text (unarySymbol operator)).Starts c scope (.text (unarySymbol operator)) :=
    ⟨.text _, by cases operator <;> rfl⟩
  exact (hsymbol.append _).begins

theorem integer_begins (d : Dialect) (value : Int) (base : Nat) (detail : String) :
    (if base = 2 ∨ base = 8 ∨ base = 10 ∨ base = 16 then integerLiteral c d.baseMark value base
      else malformed detail).Begins c scope
        (match d.baseMark base with
          | some mark => .text (integerText mark value base)
          | none => .words) := by
  split
  · unfold integerLiteral
    cases d.baseMark base with
    | none => exact .nothing rfl
    | some mark => exact .text _
  · next hbase =>
    have hnone : base ∉ d.bases := by
      cases d <;> simp_all [Dialect.bases]
    rw [d.baseMark_eq_none hnone]
    exact .nothing rfl

theorem floatLiteral_begins (value : Binary64) : (floatLiteral value).Begins c scope
    (if value.isFinite then .text (floatText value) else .words) := by
  unfold floatLiteral
  split
  · exact .text _
  · exact .nothing rfl

/-- A literal begins with its quote. -/
theorem quoted_begins {quote : Char} (hquote : quote = '"' ∨ quote = '\'') (preserve : Bool)
    (style : UnicodeEscape) (s : List Char) :
    (text (Quoted.literal quote preserve style s)).Begins c scope .words := by
  have hlead : (text (Quoted.literal quote preserve style s)).lead scope = some quote := by
    show leadOf (Quoted.literal quote preserve style s).toList = some quote
    rw [Quoted.literal, String.toList_ofList]
    rcases hquote with rfl | rfl <;> rfl
  refine .words hlead ?_
  rcases hquote with rfl | rfl <;> decide

end Brace

section

variable {d : Dialect} {setting : Setting} {c : Context} (h : d.Words setting c)
variable (scope : Option TypeScope)

include h

theorem Context.identifier_begins (s : String) :
    (c.identifier s).Begins c scope (.text (d.name setting s)) := by
  rw [identifier, h.naming]
  exact .text _

theorem Context.typeName_begins (n : NamedType) : (c.typeName n).Begins c scope
    (.text (d.name setting (n.nameIn setting.localNamespace))) := by
  rw [c.typeName_eq, h.setting]
  exact c.identifier_begins h scope _

/-- A gap begins with the mark of a comment. -/
theorem Context.unsupported_begins (construct : String) (detail : Option String) :
    (c.unsupported construct detail).Begins c scope .words := by
  have hlead : (c.unsupported construct detail).lead scope = some '/' := by
    show (c.remark _).lead scope = some '/'
    rw [h.remark]
    rfl
  exact .words hlead (by decide)

namespace Brace

theorem binary_begins (symbol : Option String) (lhs : Expression) (operator : BinaryOperator)
    (rhs : Expression) : (binary c symbol lhs operator rhs).Begins c scope
      (if symbol.isSome then .part (.expression lhs) else .words) := by
  cases symbol with
  | none => exact c.unsupported_begins h scope _ _
  | some s =>
    have hspace : (text (" " ++ s ++ " ")).Starts c scope .words := by
      refine .words (x := ' ') ?_ (by decide)
      show leadOf (" " ++ s ++ " ").toList = some ' '
      rw [String.toList_append, String.toList_append]
      rfl
    exact (((Begins.part (.expression lhs)).thenWords hspace).append _).begins

theorem field_begins (access : FieldAccess) : (field c access).Begins c scope
    (Dialect.siteOpening access.site (.text (d.name setting access.name))) :=
  site_begins (c.identifier_begins h scope access.name)

theorem call_begins (m : MethodCall) : (call c m).Begins c scope
    (Dialect.siteOpening m.site (.text (d.name setting m.name))) := by
  have hname : (site c m.site m.nullSafe ++ c.identifier m.name).Begins c scope _ :=
    site_begins (c.identifier_begins h scope m.name)
  have hopen : (text "(").Starts c scope .words := .words rfl (by decide)
  have hcall := (hname.append (genericArguments_begins m.genericArguments)).thenWords hopen
  exact ((hcall.append _).append _).begins

theorem property_begins (access : PropertyAccess) : (property c access).Begins c scope
    (Dialect.siteOpening access.site
      (if access.arguments.isEmpty || !access.name.isEmpty then .text (d.name setting access.name)
        else .words)) := by
  refine site_begins ?_
  have hname := c.identifier_begins h scope access.name
  have hopen : (text "[").Starts c scope .words := .words rfl (by decide)
  cases hargs : access.arguments.isEmpty with
  | true => exact hname
  | false =>
    cases hempty : access.name.isEmpty with
    | true => exact .words rfl (by decide)
    | false => exact (((hname.thenWords hopen).append _).append _).begins

end Brace

end

/-! ### Types -/

namespace CSharp

variable {c : Context} {scope : Option TypeScope} {setting : Setting}

theorem nullableMark_begins (t : TypeRef) : (nullableMark t).Begins c scope .words := by
  unfold nullableMark
  cases !t.isClass && t.isNullable with
  | false => exact .nothing rfl
  | true => exact .words rfl (by decide)

theorem predefinedName_starts (p : PredefinedType) :
    (text (predefinedName p)).Starts c scope .words := by
  cases p <;> exact .words rfl (by decide)

theorem rank_starts (commas : List Char) :
    (text (String.ofList ('[' :: (commas ++ [']'])))).Starts c scope .words := by
  refine .words (x := '[') ?_ (by decide)
  show leadOf (String.ofList _).toList = some '['
  rw [String.toList_ofList]
  rfl

theorem inlineBlock_begins (block : InlineBlock) : (inlineBlock c block).Begins c scope .words := by
  unfold inlineBlock
  split
  · split
    · exact .words rfl (by decide)
    · exact .words rfl (by decide)
  · exact .words rfl (by decide)

theorem typeRule_begins (h : Dialect.csharp.Words setting c) (t : TypeRef) :
    (Language.csharp.typeRule c t).Begins c scope (Dialect.csharp.typeOpening setting t.form) := by
  unfold Language.typeRule
  cases t.form with
  | named n =>
    have hname := (c.typeName_begins h scope n).append
      (Brace.genericArguments_begins n.genericArguments)
    exact hname.append (nullableMark_begins t)
  | predefined p => exact ((predefinedName_starts p).append _).begins
  | pointer target kind =>
    cases kind with
    | pointer => exact (Begins.part (.typeRef target)).append (.words rfl (by decide))
    | reference => exact .words rfl (by decide)
  | array element bounds kind =>
    exact (((Begins.part (.typeRef element)).thenWords (rank_starts _)).append _).begins
  | kindOf target | constant target => exact .part (.typeRef target)
  | inlineBlock block => exact inlineBlock_begins block
  | range start stop => exact c.unsupported_begins h scope _ _
  | dictionary | tuple | sequence | unknown => exact .words rfl (by decide)

end CSharp

namespace Swift

variable {c : Context} {scope : Option TypeScope} {setting : Setting} {lowercaseCases : Bool}

theorem optionalMark_begins (t : TypeRef) : (optionalMark t).Begins c scope .words := by
  unfold optionalMark
  split
  · exact .words rfl (by decide)
  · exact .words rfl (by decide)
  · exact .words rfl (by decide)
  · exact .nothing rfl
  · exact .nothing rfl

theorem predefinedName_starts (p : PredefinedType) :
    (text (predefinedName p)).Starts c scope .words := by
  cases p <;> exact .words rfl (by decide)

theorem typeRule_begins (h : (Dialect.swift lowercaseCases).Words setting c) (t : TypeRef) :
    ((Language.swift lowercaseCases).typeRule c t).Begins c scope
      ((Dialect.swift lowercaseCases).typeOpening setting t.form) := by
  unfold Language.typeRule
  cases t.form with
  | named n =>
    have hname := (c.typeName_begins h scope n).append
      (Brace.genericArguments_begins n.genericArguments)
    exact hname.append (optionalMark_begins t)
  | predefined p => exact ((predefinedName_starts p).append _).begins
  | pointer target kind =>
    cases kind with
    | pointer => exact .words rfl (by decide)
    | reference => exact .part (.typeRef target)
  | kindOf target | constant target => exact .part (.typeRef target)
  | inlineBlock block =>
    show (if isMarked t then _ else functionType c block).Begins c scope .words
    split
    · exact .words rfl (by decide)
    · exact .words rfl (by decide)
  | range start stop => exact c.unsupported_begins h scope _ _
  | array | dictionary | tuple | sequence | unknown => exact .words rfl (by decide)

end Swift

/-! ### Expressions -/

namespace CSharp

variable {c : Context} {scope : Option TypeScope} {setting : Setting}

theorem array_begins (elements : List Expression) (elementType : Option TypeRef) :
    (array c elements elementType).Begins c scope .words := by
  unfold array
  cases elementType with
  | some t => exact .words rfl (by decide)
  | none => cases elements.isEmpty <;> exact .words rfl (by decide)

theorem typeCast_begins (cast : TypeCast) : (typeCast c cast).Begins c scope
    (if cast.throws then .words else .part (.expression cast.value)) := by
  unfold typeCast
  split
  · exact .words rfl (by decide)
  · have has : (text " as ").Starts c scope .words := .words rfl (by decide)
    exact (((Begins.part (.expression cast.value)).thenWords has).append _).begins

theorem expressionRule_begins (h : Dialect.csharp.Words setting c) (e : Expression) :
    (Language.csharp.expressionRule c e).Begins c scope
      (Dialect.csharp.expressionOpening setting e.form) := by
  unfold Language.expressionRule
  cases e.form with
  | integer value base => exact Brace.integer_begins .csharp value base _
  | float value => exact Brace.floatLiteral_begins value
  | identifier name | localVariable name => exact c.identifier_begins h scope name
  | raw s => exact .text s
  | unary operator value => exact Brace.unary_begins operator value
  | field access => exact Brace.field_begins h scope access
  | property access => exact Brace.property_begins h scope access
  | call m => exact Brace.call_begins h scope m
  | element array indices => exact Brace.element_begins array indices
  | conditional condition ifTrue ifFalse => exact Brace.conditional_begins condition ifTrue ifFalse
  | binary lhs operator rhs => exact Brace.binary_begins h scope _ lhs operator rhs
  | typeReference type => exact .part (.typeRef type)
  | enumValue type value =>
    have hdot : (text ".").Starts c scope .words := .words rfl (by decide)
    exact (((Begins.part (.typeRef type)).thenWords hdot).append _).begins
  | typeCheck value type =>
    have his : (text " is ").Starts c scope .words := .words rfl (by decide)
    exact (((Begins.part (.expression value)).thenWords his).append _).begins
  | typeCast cast => exact typeCast_begins cast
  | range start stop inclusive =>
    cases inclusive with
    | true => exact c.unsupported_begins h scope _ _
    | false =>
      have hdots : (text "..").Starts c scope .words := .words rfl (by decide)
      exact (((Begins.part (.expression start)).thenWords hdots).append _).begins
  | boolean value => cases value <;> exact .words rfl (by decide)
  | string s => exact Brace.quoted_begins (.inl rfl) _ _ _
  | character value =>
    show (character c value).Begins c scope .words
    unfold character
    split
    · exact Brace.quoted_begins (.inr rfl) _ _ _
    · exact .nothing rfl
  | array elements elementType => exact array_begins elements elementType
  | dictionary literal =>
    show (if _ then dictionary c literal else _).Begins c scope .words
    split
    · exact .words rfl (by decide)
    · exact .nothing rfl
  | result => exact c.unsupported_begins h scope _ _
  | nil | tuple | selfReference | inherited | newInstance | typeOf | sizeOf | defaultOf
  | parentheses | await | addressOf | dereference | anonymousMethod => exact .words rfl (by decide)

end CSharp

namespace Swift

variable {c : Context} {scope : Option TypeScope} {setting : Setting} {lowercaseCases : Bool}

theorem defaultOf_begins (h : (Dialect.swift lowercaseCases).Words setting c) (t : TypeRef) :
    (defaultOf c t).Begins c scope
      (match t.defaultValue with
        | some value => .part (.expression value)
        | none => .words) := by
  unfold defaultOf
  cases t.defaultValue with
  | some value => exact .part (.expression value)
  | none => exact c.unsupported_begins h scope _ _

theorem expressionRule_begins (h : (Dialect.swift lowercaseCases).Words setting c)
    (e : Expression) :
    ((Language.swift lowercaseCases).expressionRule c e).Begins c scope
      ((Dialect.swift lowercaseCases).expressionOpening setting e.form) := by
  unfold Language.expressionRule
  cases e.form with
  | integer value base => exact Brace.integer_begins (.swift lowercaseCases) value base _
  | float value => exact Brace.floatLiteral_begins value
  | identifier name | localVariable name => exact c.identifier_begins h scope name
  | raw s => exact .text s
  | unary operator value => exact Brace.unary_begins operator value
  | field access => exact Brace.field_begins h scope access
  | property access => exact Brace.property_begins h scope access
  | call m => exact Brace.call_begins h scope m
  | element array indices => exact Brace.element_begins array indices
  | conditional condition ifTrue ifFalse => exact Brace.conditional_begins condition ifTrue ifFalse
  | binary lhs operator rhs => exact Brace.binary_begins h scope _ lhs operator rhs
  | typeReference type => exact .part (.typeRef type)
  | enumValue type value =>
    have hdot : (text ".").Starts c scope .words := .words rfl (by decide)
    exact (((Begins.part (.typeRefAs .notNullable type)).thenWords hdot).append _).begins
  | newInstance type arguments =>
    have hopen : (text "(").Starts c scope .words := .words rfl (by decide)
    have htype := (Begins.part (.typeRefAs .notNullable type)).thenWords hopen
    exact ((htype.append _).append _).begins
  | typeOf type =>
    exact (Begins.part (.typeRef type)).append (.words rfl (by decide))
  | defaultOf type => exact defaultOf_begins h type
  | typeCheck value type =>
    have his : (text " is ").Starts c scope .words := .words rfl (by decide)
    exact (((Begins.part (.expression value)).thenWords his).append _).begins
  | typeCast cast =>
    have has : (text (if cast.throws then " as! " else " as? ")).Starts c scope .words := by
      cases cast.throws <;> exact .words rfl (by decide)
    exact (((Begins.part (.expression cast.value)).thenWords has).append _).begins
  | range start stop inclusive =>
    have hdots : (text (if inclusive then "..." else "..<")).Starts c scope .words := by
      cases inclusive <;> exact .words rfl (by decide)
    exact (((Begins.part (.expression start)).thenWords hdots).append _).begins
  | dereference inner =>
    exact (Begins.part (.expression inner)).append (.words rfl (by decide))
  | boolean value => cases value <;> exact .words rfl (by decide)
  | string s => exact Brace.quoted_begins (.inl rfl) _ _ _
  | character value => exact Brace.quoted_begins (.inl rfl) _ _ _
  | array elements elementType =>
    show (array c elements elementType).Begins c scope .words
    unfold array
    split <;> exact .words rfl (by decide)
  | dictionary literal =>
    show (if _ then dictionary c literal else _).Begins c scope .words
    unfold dictionary
    split
    · split <;> exact .words rfl (by decide)
    · exact .nothing rfl
  | result => exact c.unsupported_begins h scope _ _
  | nil | tuple | selfReference | inherited | sizeOf | parentheses | await | addressOf
  | anonymousMethod => exact .words rfl (by decide)

end Swift

end SourcePrinter
