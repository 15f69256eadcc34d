import PlanCompiler.Proofs.Lowering.Sections.Basic
import PlanCompiler.Proofs.Code.Reading

/-!
# Declarations in lines

The line of a declaration at the top of a program has a type in front of the variable and a start
value behind it. This is how the variable that it declares is known from its text.

## Main results

* `Declaration.scan_line`: the lexemes of the line of a declaration;
* `Declaration.reads_line`: it declares its variable, and mentions none.
-/

namespace PlanCompiler

open Code Scope

namespace Declaration

/-- What stands in front of the variable. -/
def specifier : Declaration → Code
  | .plain type _ _ => type ++ " "
  | .buffer type _ => type ++ " *"
  | .record type _ => type ++ " "

/-- What stands behind the variable. -/
def tail : Declaration → Code
  | .plain _ _ initial => " = " ++ initial ++ ";"
  | .buffer _ _ => " = NULL;"
  | .record _ _ => " = \x7b0\x7d;"

/-- A declaration's line is its type, its name and its start value. -/
theorem chars_line (declaration : Declaration) :
    declaration.line.code.chars = declaration.specifier.chars ++
      (declaration.name.text.toList ++ declaration.tail.chars) := by
  cases declaration <;> simp [line, specifier, name, tail]

/-- A scalar type in front of a name is read as a type. -/
theorem isType_of_mem_scalarTypes :
    ∀ type ∈ scalarTypes, isType (type ++ " " : Code).chars = true := by
  decide

/-- An element type with a star in front of a name is read as a type. -/
theorem isType_of_mem_elementTypes :
    ∀ type ∈ "const char *" :: scalarTypes, isType (type ++ " *" : Code).chars = true := by
  decide

/-- The name of a record type is one word. -/
theorem scan_typeName {type : Name} (isType : type.isType = true) :
    Lexeme.scan .outside (type ++ " " : Code).chars = [.word type.text.toList] := by
  have word := Name.isIdentifier_of_ne (Name.node?_of_isType isType)
  rw [chars_append, chars_name, chars_text, Lexeme.scan_append fun _ _ => rfl,
    Lexeme.after_of_forall word, Lexeme.scan_word type.toList_text_ne_nil word]
  rfl

/-- The name of a type may stand in front of a declared name. -/
theorem isType_typeName {type : Name} (isType : type.isType = true) :
    Scope.isType (type ++ " " : Code).chars = true := by
  have other := Name.node?_of_isType isType
  have scanned := scan_typeName isType
  have typePlain : (type : Code).IsPlain [] := isPlain_name other
  have plain : (type ++ " " : Code).IsPlain [] := (Fits.hole typePlain |>.text _).isPlain
  have neutral : Part.isNeutral (type ++ " " : Code).chars = true := by
    rw [Part.isNeutral_iff]
    refine ⟨plain.outside, plain.sameLine, fun chars member => ?_⟩
    rw [scanned, List.mem_singleton] at member
    rw [Lexeme.word.inj member]
    exact Name.isVariable_text_eq_false other
  have ends : Lexeme.endsWord (type ++ " " : Code).chars = false := by
    rw [chars_append, chars_text]
    exact Lexeme.endsWord_append _ (List.cons_ne_nil _ _)
  -- no keyword starts like the names of types
  obtain ⟨rest, spelled⟩ := Name.exists_toList_text other
  have others : ∀ word ∈ keywords, word.toList.head? ≠ some 'k' := by decide
  have noKeyword : keywords.contains (String.ofList type.text.toList) = false := by
    rw [String.ofList_toList, Bool.eq_false_iff]
    intro keyword
    exact others _ (List.contains_iff_mem.1 keyword) (by rw [spelled]; rfl)
  rw [Scope.isType, neutral, ends, scanned, isTypeLexemes, noKeyword]
  rfl

variable {declaration : Declaration}

/-- What stands in front of a regular declaration's name is read as a type. -/
theorem isType_specifier (regular : declaration.IsRegular) :
    isType declaration.specifier.chars = true := by
  have typed := regular.2
  cases declaration with
  | plain type name initial => exact isType_of_mem_scalarTypes type typed.1
  | buffer type name => exact isType_of_mem_elementTypes type typed
  | record type name => exact isType_typeName typed

/-- What stands behind a declared name may stand there. -/
theorem isInitial_tail (declaration : Declaration) : isInitial declaration.tail.chars = true := by
  cases declaration <;> simp [tail, isInitial]

/-- The start values are plain. -/
theorem isPlain_initialText {scopes : Names} :
    ∀ text ∈ initialTexts, (text : Code).IsPlain scopes := by
  have checked : ∀ text ∈ initialTexts,
      (Part.shape? [.fixed text]).any (!·.braced) = true := by
    decide
  exact fun text member => (Fits.start text).isPlain (checked text member)

/-- What stands behind a regular declaration's name is plain. -/
theorem isPlain_tail (regular : declaration.IsRegular) {scopes : Names} :
    declaration.tail.IsPlain scopes := by
  cases declaration with
  | plain type name initial =>
    obtain ⟨-, -, text, start, rfl⟩ := regular
    exact (Fits.start _ |>.code (isPlain_initialText text start) |>.text _).isPlain
  | buffer | record => exact (Fits.start _).isPlain

/-- The lexemes of the line of a declaration. -/
theorem scan_line (regular : declaration.IsRegular) :
    Lexeme.scan .outside declaration.line.code.chars =
      Lexeme.scan .outside declaration.specifier.chars ++
        .word declaration.name.text.toList :: Lexeme.scan .outside declaration.tail.chars := by
  rw [chars_line]
  exact scan_declared (Name.toList_text_ne_nil _) regular.1.2 (isType_specifier regular)
    declaration.isInitial_tail

/-- The line of a declaration declares its variable. -/
theorem reads_line (regular : declaration.IsRegular) {here : List Name} {outer : Names}
    (fresh : declaration.name ∉ here) :
    ReadsLines [declaration.line] (here :: outer) ((declaration.name :: here) :: outer) := by
  obtain ⟨node, ofNode⟩ := Option.isSome_iff_exists.1 regular.1.1
  have line : declaration.line = { indent := 1, code := declaration.line.code } := by
    cases declaration <;> rfl
  rw [line]
  exact .declare ofNode regular.1.2 (isType_specifier regular) declaration.isInitial_tail
    (isPlain_tail regular) fresh declaration.chars_line 1

end Declaration

namespace Sections

variable {sections : Sections} {owned : Name → Prop}

/-- All declarations together declare their variables. -/
theorem IsTidy.reads_declarations (tidy : sections.IsTidy owned) :
    ReadsLines (sections.declarations.map Declaration.line) [[]] [sections.names.reverse] := by
  have reads := @ReadsLines.declareAll _ sections.declarations Declaration.name
    (fun declaration => [declaration.line]) [] (fun declaration member here fresh =>
      Declaration.reads_line (tidy.regular declaration member) fresh) tidy.distinct []
        fun _ _ => List.not_mem_nil
  rwa [List.append_nil, ← List.map_eq_flatMap] at reads

/-- Tidy sections mention only variables that they declare. -/
theorem IsTidy.isVisible (tidy : sections.IsTidy owned) :
    sections.IsVisible sections.names.reverse := by
  intro name member
  obtain ⟨declaration, found, rfl⟩ := List.mem_map.1 member
  exact ⟨(tidy.regular declaration found).1.2, _, List.mem_singleton_self _,
    List.mem_reverse.2 member⟩

end Sections

end PlanCompiler
