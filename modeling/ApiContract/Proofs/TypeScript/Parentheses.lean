import ApiContract.TypeScript.Printer

/-!
# Parentheses

The printer writes parentheses in one place only, around an object literal that is the body of a
function. That is enough for expressions whose operands stand bare.

## Operands

`Expr.OperandsBare` says what may stand in each place: what a property, an index or arguments follow
is a name or again such an expression, what an operator stands in front of is one with something
behind, what is taken `as const` is a literal with brackets, and no body begins with the brace of an
object that is taken so. `Expr.StandsBare` asks this of an expression and of all that it is made of
(`Expr.Everywhere`), and there is one lemma, tagged for the simplifier, for each way to make an
expression.

## Precedence

Whether parentheses are missing is told by a printer that writes them wherever an expression binds
less strongly than its place asks for (`Expr.printByPrecedence`). It is another printer, with the
strength of each place as a number, and does not know of bare operands. Where operands stand bare,
it writes no others than the printer does (`Expr.StandsBare.printByPrecedence_eq`), by induction on
the expression.

## Declarations

The expressions that a declaration is printed with are its value, or those of the statements of its
body (`Declaration.expressions`). Types have no operators that would need parentheses but unions,
which are printed in angle brackets wherever something follows them.
-/

namespace ApiContract.TypeScript

/-! ### Parts of expressions -/

/-- The expression in a part of a template literal. -/
def TemplatePart.value? : TemplatePart → Option Expr
  | .text _ => none
  | .hole value => some value

/-- The expression in an entry of an object literal. -/
def Entry.value? : Entry → Option Expr
  | .keyed _ value | .spread value => some value
  | .shorthand _ => none

namespace Expr

/-- The expressions that an expression is made of. -/
def children : Expr → List Expr
  | identifier _ | literal _ | regex _ => []
  | template parts => parts.filterMap TemplatePart.value?
  | array items => items
  | object entries => entries.filterMap Entry.value?
  | member target _ => [target]
  | index target key => [target, key]
  | call callee _ args => callee :: args
  | arrow _ body => [body]
  | unary _ operand => [operand]
  | asConst value => [value]

/-- A property holds of an expression and of all that it is made of. -/
inductive Everywhere (p : Expr → Prop) : Expr → Prop
  | intro {e : Expr} (here : p e) (below : ∀ c ∈ e.children, Everywhere p c) : Everywhere p e

theorem everywhere_iff {p : Expr → Prop} {e : Expr} :
    Everywhere p e ↔ p e ∧ ∀ c ∈ e.children, Everywhere p c :=
  ⟨fun ⟨here, below⟩ ↦ ⟨here, below⟩, fun ⟨here, below⟩ ↦ ⟨here, below⟩⟩

/-! ### Operands -/

/-- A property, an index or a call. -/
def isAccess : Expr → Bool
  | member .. | index .. | call .. => true
  | _ => false

/-- A name, or something that is reached from one. -/
def isReference : Expr → Bool
  | identifier _ => true
  | e => e.isAccess

/-- A list or an object, written out. -/
def isCollection : Expr → Bool
  | array _ | object _ => true
  | _ => false

/-- An object, written out and taken `as const`. -/
def isConstObject : Expr → Bool
  | asConst value => value.isObject
  | _ => false

/-- The operands of an expression are such that they need no parentheses. -/
def OperandsBare : Expr → Prop
  | member target _ | index target _ => target.isReference = true
  | call callee _ _ => callee.isReference = true
  | unary _ operand => operand.isAccess = true
  | asConst value => value.isCollection = true
  | arrow _ body => body.isConstObject = false
  | _ => True

/-- No operand needs parentheses, in an expression and in all that it is made of. -/
def StandsBare (e : Expr) : Prop := e.Everywhere OperandsBare

/-- An expression that a property, an index or arguments may follow. -/
def IsReceiver (e : Expr) : Prop := e.isReference = true ∧ e.StandsBare

end Expr

/-- No operand needs parentheses in the value of an entry. -/
def Entry.StandsBare (entry : Entry) : Prop := ∀ value ∈ entry.value?, value.StandsBare

namespace Entry

@[simp] theorem standsBare_keyed_iff {key : String} {value : Expr} :
    (keyed key value).StandsBare ↔ value.StandsBare := by
  simp [StandsBare, value?]

@[simp] theorem standsBare_spread_iff {value : Expr} :
    (spread value).StandsBare ↔ value.StandsBare := by
  simp [StandsBare, value?]

@[simp] theorem standsBare_shorthand (name : String) : (shorthand name).StandsBare := nofun

end Entry

namespace Expr

section StandsBare

variable {e target callee body operand value key : Expr}

theorem standsBare_iff : e.StandsBare ↔ e.OperandsBare ∧ ∀ c ∈ e.children, c.StandsBare :=
  everywhere_iff

@[simp] theorem standsBare_identifier (name : String) : (identifier name).StandsBare :=
  standsBare_iff.2 ⟨trivial, nofun⟩

@[simp] theorem standsBare_literal (value : Json) : (literal value).StandsBare :=
  standsBare_iff.2 ⟨trivial, nofun⟩

@[simp] theorem standsBare_text (value : String) : (text value).StandsBare :=
  standsBare_literal _

@[simp] theorem standsBare_bool (value : Bool) : (bool value).StandsBare :=
  standsBare_literal _

@[simp] theorem standsBare_regex (pattern : String) : (regex pattern).StandsBare :=
  standsBare_iff.2 ⟨trivial, nofun⟩

@[simp] theorem standsBare_template_iff {parts : List TemplatePart} :
    (template parts).StandsBare ↔ ∀ e ∈ parts.filterMap TemplatePart.value?, e.StandsBare :=
  standsBare_iff.trans (and_iff_right trivial)

@[simp] theorem standsBare_array_iff {items : List Expr} :
    (array items).StandsBare ↔ ∀ e ∈ items, e.StandsBare :=
  standsBare_iff.trans (and_iff_right trivial)

@[simp] theorem standsBare_object_iff {entries : List Entry} :
    (object entries).StandsBare ↔ ∀ entry ∈ entries, entry.StandsBare := by
  rw [standsBare_iff]
  constructor
  · rintro ⟨-, hchildren⟩ entry hentry value hvalue
    exact hchildren value (List.mem_filterMap.2 ⟨entry, hentry, hvalue⟩)
  · intro h
    refine ⟨trivial, fun e he ↦ ?_⟩
    obtain ⟨entry, hentry, hvalue⟩ := List.mem_filterMap.1 he
    exact h entry hentry e hvalue

@[simp] theorem standsBare_member_iff {property : String} :
    (member target property).StandsBare ↔ target.IsReceiver :=
  standsBare_iff.trans (and_congr_right' List.forall_mem_singleton)

@[simp] theorem standsBare_index_iff :
    (index target key).StandsBare ↔ target.IsReceiver ∧ key.StandsBare := by
  rw [standsBare_iff, IsReceiver, and_assoc]
  exact and_congr_right' (List.forall_mem_cons.trans (and_congr_right' List.forall_mem_singleton))

@[simp] theorem standsBare_call_iff {typeArgs : List TypeExpr} {args : List Expr} :
    (call callee typeArgs args).StandsBare ↔ callee.IsReceiver ∧ ∀ e ∈ args, e.StandsBare := by
  rw [standsBare_iff, IsReceiver, and_assoc]
  exact and_congr_right' List.forall_mem_cons

@[simp] theorem standsBare_arrow_iff {params : List Param} :
    (arrow params body).StandsBare ↔ body.isConstObject = false ∧ body.StandsBare :=
  standsBare_iff.trans (and_congr_right' List.forall_mem_singleton)

@[simp] theorem standsBare_unary_iff {operator : String} :
    (unary operator operand).StandsBare ↔ operand.isAccess = true ∧ operand.StandsBare :=
  standsBare_iff.trans (and_congr_right' List.forall_mem_singleton)

@[simp] theorem standsBare_asConst_iff :
    (asConst value).StandsBare ↔ value.isCollection = true ∧ value.StandsBare :=
  standsBare_iff.trans (and_congr_right' List.forall_mem_singleton)

@[simp] theorem isReceiver_identifier (name : String) : (identifier name).IsReceiver :=
  ⟨rfl, standsBare_identifier name⟩

@[simp] theorem isReceiver_member_iff {property : String} :
    (member target property).IsReceiver ↔ target.IsReceiver :=
  (and_iff_right rfl).trans standsBare_member_iff

@[simp] theorem isReceiver_call_iff {typeArgs : List TypeExpr} {args : List Expr} :
    (call callee typeArgs args).IsReceiver ↔ callee.IsReceiver ∧ ∀ e ∈ args, e.StandsBare :=
  (and_iff_right rfl).trans standsBare_call_iff

@[simp] theorem standsBare_apply_iff {args : List Expr} :
    (callee.apply args).StandsBare ↔ callee.IsReceiver ∧ ∀ e ∈ args, e.StandsBare :=
  standsBare_call_iff

@[simp] theorem standsBare_method_iff {name : String} {args : List Expr} :
    (target.method name args).StandsBare ↔ target.IsReceiver ∧ ∀ e ∈ args, e.StandsBare :=
  standsBare_call_iff.trans (and_congr_left' isReceiver_member_iff)

@[simp] theorem isConstObject_method {name : String} {args : List Expr} :
    (target.method name args).isConstObject = false := rfl

@[simp] theorem isReceiver_method_iff {name : String} {args : List Expr} :
    (target.method name args).IsReceiver ↔ target.IsReceiver ∧ ∀ e ∈ args, e.StandsBare :=
  isReceiver_call_iff.trans (and_congr_left' isReceiver_member_iff)

end StandsBare

/-! ### Printing by precedence -/

/-- How strongly an expression binds: a function least, then what is taken `as const`, then what an
operator stands in front of. A number binds no more strongly than that: it may have a sign in front,
and a dot behind a whole one would be its own. -/
def precedence : Expr → Nat
  | arrow .. => 0
  | asConst _ => 1
  | unary .. | literal (.number _) => 2
  | _ => 3

/-- Whether the text of an expression begins with the brace of an object. -/
def opensWithBrace : Expr → Bool
  | object _ => true
  | member target _ | index target _ | call target _ _ | asConst target => target.opensWithBrace
  | _ => false

end Expr

/-- A text in parentheses, if they are needed. -/
def parenthesize (needed : Bool) (text : String) : String :=
  if needed then "(" ++ text ++ ")" else text

mutual

/-- An expression as text, with parentheses around every operand that binds less strongly than its
place asks for, and around the body of a function that begins as a block would. -/
def Expr.printByPrecedence (level : Nat) : Expr → String
  | .identifier name => name
  | .literal value => value.compact
  | .regex pattern => "/" ++ String.ofList (escapeRegex false pattern.toList) ++ "/"
  | .template parts => "\x60" ++ printPartsByPrecedence level parts ++ "\x60"
  | .array items => bracketed "[" "]" "" (printItemsByPrecedence (level + 1) items) level
  | .object entries =>
    bracketed "\x7b" "\x7d" " " (printEntriesByPrecedence (level + 1) entries) level
  | .member target property =>
    parenthesize (target.precedence < 3) (target.printByPrecedence level) ++ "." ++ property
  | .index target key =>
    parenthesize (target.precedence < 3) (target.printByPrecedence level) ++ "[" ++
      key.printByPrecedence level ++ "]"
  | .call callee typeArgs args =>
    parenthesize (callee.precedence < 3) (callee.printByPrecedence level) ++
      printTypeArgs level typeArgs ++ "(" ++
      String.intercalate ", " (printItemsByPrecedence level args) ++ ")"
  | .arrow params body =>
    "(" ++ printParams level params ++ ") => " ++
      parenthesize body.opensWithBrace (body.printByPrecedence level)
  | .unary operator operand =>
    operator ++ operatorGap operator ++
      parenthesize (operand.precedence < 2) (operand.printByPrecedence level)
  | .asConst value =>
    parenthesize (value.precedence < 1) (value.printByPrecedence level) ++ " as const"

/-- The texts of expressions. -/
def printItemsByPrecedence (level : Nat) : List Expr → List String
  | [] => []
  | item :: rest => item.printByPrecedence level :: printItemsByPrecedence level rest

/-- The parts of a template literal. -/
def printPartsByPrecedence (level : Nat) : List TemplatePart → String
  | [] => ""
  | .text value :: rest =>
    String.ofList (escapeTemplate value.toList) ++ printPartsByPrecedence level rest
  | .hole value :: rest =>
    "$\x7b" ++ value.printByPrecedence level ++ "\x7d" ++ printPartsByPrecedence level rest

/-- The texts of the entries of an object literal. -/
def printEntriesByPrecedence (level : Nat) : List Entry → List String
  | [] => []
  | .keyed key value :: rest =>
    (propertyKey key ++ ": " ++ value.printByPrecedence level) ::
      printEntriesByPrecedence level rest
  | .shorthand name :: rest => name :: printEntriesByPrecedence level rest
  | .spread value :: rest =>
    ("..." ++ value.printByPrecedence level) :: printEntriesByPrecedence level rest

end

section Printing

variable {e : Expr}

/-- So for items, if it holds of each. -/
theorem printItemsByPrecedence_eq (level : Nat) {items : List Expr}
    (h : ∀ e ∈ items, e.printByPrecedence level = e.print level) :
    printItemsByPrecedence level items = printItems level items := by
  induction items with
  | nil => rw [printItemsByPrecedence, printItems]
  | cons item rest ih =>
    obtain ⟨hitem, hrest⟩ := List.forall_mem_cons.1 h
    rw [printItemsByPrecedence, printItems, hitem, ih hrest]

theorem printPartsByPrecedence_eq (level : Nat) {parts : List TemplatePart}
    (h : ∀ e ∈ parts.filterMap TemplatePart.value?, e.printByPrecedence level = e.print level) :
    printPartsByPrecedence level parts = printParts level parts := by
  induction parts with
  | nil => rw [printPartsByPrecedence, printParts]
  | cons part rest ih =>
    cases part with
    | text value => rw [printPartsByPrecedence, printParts, ih h]
    | hole value =>
      obtain ⟨hvalue, hrest⟩ := List.forall_mem_cons.1 h
      rw [printPartsByPrecedence, printParts, hvalue, ih hrest]

theorem printEntriesByPrecedence_eq (level : Nat) {entries : List Entry}
    (h : ∀ e ∈ entries.filterMap Entry.value?, e.printByPrecedence level = e.print level) :
    printEntriesByPrecedence level entries = printEntries level entries := by
  induction entries with
  | nil => rw [printEntriesByPrecedence, printEntries]
  | cons entry rest ih =>
    cases entry with
    | keyed key value =>
      obtain ⟨hvalue, hrest⟩ := List.forall_mem_cons.1 h
      rw [printEntriesByPrecedence, printEntries, hvalue, ih hrest]
    | shorthand name => rw [printEntriesByPrecedence, printEntries, ih h]
    | spread value =>
      obtain ⟨hvalue, hrest⟩ := List.forall_mem_cons.1 h
      rw [printEntriesByPrecedence, printEntries, hvalue, ih hrest]

/-- What something may follow binds most strongly. -/
theorem Expr.precedence_of_isReference (h : e.isReference = true) : e.precedence = 3 := by
  cases e with
  | identifier | member | index | call => rfl
  | _ => exact absurd h Bool.false_ne_true

theorem Expr.precedence_of_isCollection (h : e.isCollection = true) : e.precedence = 3 := by
  cases e with
  | array | object => rfl
  | _ => exact absurd h Bool.false_ne_true

/-- What has something behind may be followed by something. -/
theorem Expr.isReference_of_isAccess (h : e.isAccess = true) : e.isReference = true := by
  cases e with
  | identifier => rfl
  | _ => exact h

/-- What is reached from a name begins with the name. -/
theorem Expr.IsReceiver.opensWithBrace_eq_false (h : e.IsReceiver) : e.opensWithBrace = false := by
  obtain ⟨href, hbare⟩ := h
  induction hbare with
  | @intro e here below ih =>
    cases e with
    | identifier => rfl
    | member target | index target | call target =>
      rw [opensWithBrace]
      exact ih target List.mem_cons_self here
    | _ => exact absurd href Bool.false_ne_true

/-- The body of a function begins with a brace only if it is an object. -/
theorem Expr.StandsBare.opensWithBrace_eq (h : e.StandsBare) (hconst : e.isConstObject = false) :
    e.opensWithBrace = e.isObject := by
  cases e with
  | member | index | call => exact IsReceiver.opensWithBrace_eq_false ⟨rfl, h⟩
  | asConst value =>
    -- what is taken `as const` is a list, as it is no object
    obtain ⟨hcollection, -⟩ := standsBare_asConst_iff.1 h
    cases value with
    | array => rfl
    | object => exact absurd hconst.symm Bool.false_ne_true
    | _ => exact absurd hcollection Bool.false_ne_true
  | _ => rfl

/-- What binds most strongly stands bare everywhere. -/
theorem parenthesize_eq_self {strength : Nat} (hstrength : strength ≤ 3) (h : e.precedence = 3)
    (text : String) : parenthesize (e.precedence < strength) text = text := by
  rw [parenthesize, if_neg]
  rw [decide_eq_true_eq, h]
  exact Nat.not_lt.2 hstrength

/-- **Where operands stand bare, no parentheses are missing.** -/
theorem Expr.StandsBare.printByPrecedence_eq (h : e.StandsBare) :
    ∀ level, e.printByPrecedence level = e.print level := by
  induction h with
  | @intro e here below ih =>
    intro level
    have hchild (c : Expr) (hc : c ∈ e.children) : c.printByPrecedence level = c.print level :=
      ih c hc level
    -- In each case the operand is shown to bind as strongly as its place asks for.
    cases e with
    | identifier | literal | regex => rw [printByPrecedence, print]
    | template parts => rw [printByPrecedence, print, printPartsByPrecedence_eq level hchild]
    | array items =>
      have hitems : ∀ c ∈ items, c.printByPrecedence (level + 1) = c.print (level + 1) :=
        fun c hc ↦ ih c hc _
      rw [printByPrecedence, print, printItemsByPrecedence_eq _ hitems]
    | object entries =>
      rw [printByPrecedence, print, printEntriesByPrecedence_eq _ fun c hc ↦ ih c hc _]
    | member target property =>
      rw [printByPrecedence, print, hchild target List.mem_cons_self,
        parenthesize_eq_self (Nat.le_refl 3) (precedence_of_isReference here)]
    | index target key =>
      rw [printByPrecedence, print, hchild target List.mem_cons_self,
        hchild key (List.mem_cons_of_mem _ List.mem_cons_self),
        parenthesize_eq_self (Nat.le_refl 3) (precedence_of_isReference here)]
    | call callee typeArgs args =>
      have hargs : ∀ c ∈ args, c.printByPrecedence level = c.print level :=
        fun c hc ↦ hchild c (List.mem_cons_of_mem _ hc)
      rw [printByPrecedence, print, hchild callee List.mem_cons_self,
        printItemsByPrecedence_eq level hargs,
        parenthesize_eq_self (Nat.le_refl 3) (precedence_of_isReference here)]
    | arrow params body =>
      have hbody : body.StandsBare := below body List.mem_cons_self
      rw [printByPrecedence, print, hchild body List.mem_cons_self, hbody.opensWithBrace_eq here,
        parenthesize]
    | unary operator operand =>
      have hoperand := precedence_of_isReference (isReference_of_isAccess here)
      rw [printByPrecedence, print, hchild operand List.mem_cons_self,
        parenthesize_eq_self (Nat.le_succ 2) hoperand]
    | asConst value =>
      rw [printByPrecedence, print, hchild value List.mem_cons_self,
        parenthesize_eq_self (Nat.le_add_left 1 2) (precedence_of_isCollection here)]

/-- The body of this function would begin a block. -/
example : (Expr.arrow [] (.asConst (.object []))).print 0 = "() => \x7b\x7d as const" ∧
    (Expr.arrow [] (.asConst (.object []))).printByPrecedence 0 =
      "() => (\x7b\x7d as const)" := by
  decide +kernel

end Printing

/-! ### Expressions of declarations -/

mutual

/-- The expressions that a statement is printed with. -/
def Statement.expressions : Statement → List Expr
  | .const _ value | .return value | .expr value => [value]
  | .assign target value => [target, value]
  | .if condition whenTrue whenFalse =>
    condition :: (statementExpressions whenTrue ++ statementExpressions whenFalse)

/-- The expressions of several statements. -/
def statementExpressions : List Statement → List Expr
  | [] => []
  | statement :: rest => statement.expressions ++ statementExpressions rest

end

/-- The expressions of statements one after the other. -/
theorem statementExpressions_append (first second : List Statement) :
    statementExpressions (first ++ second) =
      statementExpressions first ++ statementExpressions second := by
  induction first with
  | nil => rw [statementExpressions, List.nil_append, List.nil_append]
  | cons statement rest ih =>
    rw [List.cons_append, statementExpressions, statementExpressions, ih, List.append_assoc]

namespace Declaration

/-- The expressions that a declaration is printed with. -/
def expressions : Declaration → List Expr
  | const _ _ value _ => [value]
  | function _ _ _ _ body _ => statementExpressions body
  | _ => []

/-- No operand needs parentheses, in any expression of the declaration. -/
def StandsBare (d : Declaration) : Prop := ∀ e ∈ d.expressions, e.StandsBare

/-- A declaration without expressions has no operands. -/
theorem standsBare_of_expressions_eq_nil {d : Declaration} (h : d.expressions = []) :
    d.StandsBare := by
  rw [StandsBare, h]
  exact List.forall_mem_nil _

theorem standsBare_banner {title : String} : (banner title).StandsBare :=
  standsBare_of_expressions_eq_nil rfl

theorem standsBare_imports {main : Option String} {names : List String} {source : String}
    {typeOnly : Bool} : (imports main names source typeOnly).StandsBare :=
  standsBare_of_expressions_eq_nil rfl

theorem standsBare_const_iff {name : String} {type : Option TypeExpr} {value : Expr}
    {doc : Option String} : (const name type value doc).StandsBare ↔ value.StandsBare :=
  List.forall_mem_singleton

end Declaration

end ApiContract.TypeScript
