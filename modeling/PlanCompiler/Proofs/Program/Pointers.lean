import PlanCompiler.Proofs.Code.Memory
import PlanCompiler.Proofs.Program.Declarations

/-!
# Pointers in lines

The pointers to memory that the declarations at the top of a program introduce are known from its
text: from the lines of the declarations, and from the lines that define the types of records.

## Main results

* `Declaration.pointers_lexemes`: the pointers that the line of a declaration declares;
* `Declaration.frees_free`: a call of `free` releases its pointer, and nothing else.
-/

namespace PlanCompiler

open Code Scope Memory

/-! ## Names of types -/

/-- Types of records are known by their spelling. -/
theorem Name.eq_of_isType {type type' : Name} (isType : type.isType = true)
    (isType' : type'.isType = true) (same : type.text.toList = type'.text.toList) :
    type = type' := by
  have texts := String.toList_inj.1 same
  cases type <;> cases isType <;> cases type' <;> cases isType'
  · exact congrArg _ (append_toString_injective texts)
  · simp [text, String.toList_append] at same
  · simp [text, String.toList_append] at same
  · exact congrArg _ (append_toString_injective texts)

/-! ## Members -/

/-- The star of a buffer is the last lexeme of its type. -/
theorem lexemes_element :
    ∀ type ∈ "char" :: "const char *" :: Declaration.scalarTypes,
      (type ++ " *" : Code).lexemes = (type : Code).lexemes ++ [.sign '*'] := by
  decide

namespace Member

variable {member : Member}

/-- What stands in front of a member. -/
def specifier (member : Member) : Code := member.type ++ if member.isBuffer then " *" else " "

/-- A type of fields with a star behind it is read as a type. -/
theorem isType_of_mem_fieldTypes :
    ∀ type ∈ "char" :: "const char *" :: Declaration.scalarTypes,
      isType (type ++ " *" : Code).chars = true := by
  decide

/-- What stands in front of a regular member is read as a type. -/
theorem isType_specifier (regular : member.IsRegular) : isType member.specifier.chars = true := by
  obtain ⟨-, typed⟩ := regular
  rw [specifier]
  split at typed
  · rename_i isBuffer
    rw [if_pos isBuffer]
    exact isType_of_mem_fieldTypes _ typed
  · rename_i notBuffer
    rw [if_neg notBuffer, typed]
    decide

/-- The lexemes of a regular member's line. -/
theorem lexemes_line (regular : member.IsRegular) :
    member.line.lexemes = member.specifier.lexemes ++ [.word member.name.toList, .sign ';'] := by
  obtain ⟨nonempty, word, -⟩ := regular.1
  have chars : member.line.code.chars =
      member.specifier.chars ++ (member.name.toList ++ [';']) := by
    simp [line, specifier]
  rw [Line.lexemes, Code.lexemes, chars]
  exact scan_declared nonempty word (isType_specifier regular) rfl

/-- The line of a buffer has a star, and the other lines have none. -/
theorem member?_lexemes_line (regular : member.IsRegular) :
    member? member.line.lexemes = if member.isBuffer then some member.name.toList else none := by
  rw [lexemes_line regular, specifier]
  obtain ⟨-, typed⟩ := regular
  split at typed
  · rename_i isBuffer
    rw [if_pos isBuffer, if_pos isBuffer, lexemes_element _ typed, List.append_assoc]
    exact member?_append _ _
  · rename_i notBuffer
    have size : (("size_t" : String) ++ " " : Code).lexemes = [.word "size_t".toList] := by
      decide
    rw [if_neg notBuffer, if_neg notBuffer, typed, size]
    exact member?_eq_none (by simp)

end Member

/-! ## Definitions -/

/-- Nothing that starts with a type ends the definition of a type. -/
theorem append_ne_typeEnd {front : List Lexeme} (isType : isTypeLexemes front = true)
    (back : List Lexeme) (type : List Char) : front ++ back ≠ typeEnd type := by
  match front with
  | .word _ :: _ => exact fun same => nomatch (List.cons.inj same).1

namespace Definition

variable {definition : Definition} {type : Name} {members : List Member}

/-- The lexemes of the lines that define a record. -/
theorem lexemes_lines_record (isType : type.isType = true) :
    (record type members).lines.map Line.lexemes =
      typeStart :: (members.map (·.line.lexemes) ++ [typeEnd type.text.toList, []]) := by
  have word := Name.isIdentifier_of_ne (Name.node?_of_isType isType)
  have start : ("typedef struct \x7b" : Code).lexemes = typeStart := by decide
  have name : Lexeme.scan .outside (type.text.toList ++ [';']) =
      [.word type.text.toList, .sign ';'] := by
    rw [Lexeme.scan_append fun _ _ => rfl, Lexeme.scan_word type.toList_text_ne_nil word,
      Lexeme.after_of_forall word]
    rfl
  have chars : ("\x7d " ++ type ++ ";" : Code).chars =
      '\x7d' :: ' ' :: (type.text.toList ++ [';']) := by
    simp
  have ending : ("\x7d " ++ type ++ ";" : Code).lexemes = typeEnd type.text.toList := by
    rw [Code.lexemes, chars]
    exact congrArg (.sign '\x7d' :: ·) name
  rw [lines, List.map_cons, List.map_append, List.map_map]
  exact congrArg₂ _ start (congrArg (_ ++ ·) (congrArg (· :: _) ending))

/-- The line of a regular member does not end its record. -/
theorem ne_typeEnd_of_mem (regular : ∀ member ∈ members, member.IsRegular) (type : List Char)
    {lexemes : List Lexeme} (found : lexemes ∈ members.map (·.line.lexemes)) :
    lexemes ≠ typeEnd type := by
  obtain ⟨member, inMembers, rfl⟩ := List.mem_map.1 found
  have regularMember := regular member inMembers
  have typed := Member.isType_specifier regularMember
  rw [Scope.isType, Bool.and_eq_true] at typed
  rw [Member.lexemes_line regularMember]
  exact append_ne_typeEnd typed.2 _ _

/-- The buffers of a type are the pointers among the members in its lines. -/
theorem members?_record (regular : (record type members).IsRegular) :
    members? type.text.toList ((record type members).lines.map Line.lexemes) =
      some (((members.filter Member.isBuffer).map Member.name).map String.toList) := by
  obtain ⟨isType, regularMembers⟩ := regular
  have inside : ∀ lexemes ∈ members.map (·.line.lexemes),
      decide (lexemes ≠ typeEnd type.text.toList) = true := fun lexemes found =>
    decide_eq_true (ne_typeEnd_of_mem regularMembers _ found)
  -- no member looks like the closing line, so that the search for it ends at the right one
  have taken : (typeStart :: (members.map (·.line.lexemes) ++
      [typeEnd type.text.toList, []])).takeWhile (· ≠ typeEnd type.text.toList) =
        typeStart :: members.map (·.line.lexemes) := by
    rw [List.takeWhile_cons_of_pos rfl, List.takeWhile_append_of_pos inside,
      List.takeWhile_cons_of_neg (by simp), List.append_nil]
  rw [lexemes_lines_record isType, members?, if_pos ⟨rfl, by simp⟩, taken,
    List.filterMap_cons_none rfl, List.filterMap_map, List.map_map, ← List.filterMap_eq_map,
    List.filterMap_filter]
  exact congrArg some (List.filterMap_congr fun member found =>
    Member.member?_lexemes_line (regularMembers member found))

/-- The first line of a function starts with its comment or the type of its result. -/
theorem exists_head?_lexemes_lines_function (comment : List String) (result : String) (name : Name)
    (parameters : List Code) (body : List Statement) :
    ∃ rest, ((function comment result name parameters body).lines.map Line.lexemes).head? =
      some (Lexeme.scan .outside ((comment ++ [result]).headD "").toList ++ rest) := by
  -- the first line is the first of the comment, or the head if there is none
  cases comment with
  | nil =>
    have chars : (result ++ " " ++ name ++ "(" ++ .separated ", " parameters ++ ")" : Code).chars =
        result.toList ++ ' ' :: (name.text.toList ++ '(' ::
          ((Code.separated ", " parameters).chars ++ [')'])) := by
      simp
    have scanned := @Lexeme.scan_append .outside result.toList (' ' :: (name.text.toList ++ '(' ::
      ((Code.separated ", " parameters).chars ++ [')']))) fun _ _ => rfl
    refine ⟨_, congrArg some (Eq.trans ?_ scanned)⟩
    exact congrArg (Lexeme.scan .outside) chars
  | cons text comment =>
    refine ⟨[], congrArg some ?_⟩
    rw [Line.lexemes, Code.lexemes, Code.chars_text, List.append_nil]
    rfl

/-- Other lines do not define the type. -/
theorem members?_eq_none (isType : type.isType = true) (regular : definition.IsRegular)
    (other : ∀ members, definition ≠ .record type members) :
    members? type.text.toList (definition.lines.map Line.lexemes) = none := by
  rw [members?, if_neg]
  rintro ⟨first, last⟩
  cases definition with
  | global => exact regular.elim
  | record name members =>
    obtain ⟨isType', regularMembers⟩ := regular
    rw [lexemes_lines_record isType'] at last
    -- only the last line looks like an end, and it has another name
    rcases List.mem_cons.1 last with start | last
    · exact nomatch start
    rcases List.mem_append.1 last with member | ending
    · exact ne_typeEnd_of_mem regularMembers _ member rfl
    rcases List.mem_cons.1 ending with same | blank
    · obtain rfl := Name.eq_of_isType isType isType' (by simpa [typeEnd] using same)
      exact other members rfl
    · exact nomatch List.mem_singleton.1 blank
  | function comment result name parameters body =>
    obtain ⟨lexeme, start, noType⟩ := regular
    obtain ⟨rest, line⟩ := exists_head?_lexemes_lines_function comment result name parameters body
    have same := congrArg List.head? (Option.some.inj (line.symm.trans first))
    rw [List.head?_append, start] at same
    exact noType (Option.some.inj same)

/-- All lines together have the buffers of a type. -/
theorem flatten_members? {definitions : List Definition} (isType : type.isType = true)
    (regular : ∀ definition ∈ definitions, definition.IsRegular) :
    ((definitionLines definitions).filterMap (members? type.text.toList)).flatten =
      (Declaration.bufferMembers definitions type).map String.toList := by
  induction definitions with
  | nil => rfl
  | cons definition rest ih =>
    rw [List.forall_mem_cons] at regular
    obtain ⟨regular, regularRest⟩ := regular
    rw [definitionLines, List.map_cons]
    -- the lines of one definition have the buffers of its own type and of no other
    by_cases defines : ∃ members, definition = .record type members
    · obtain ⟨members, rfl⟩ := defines
      rw [List.filterMap_cons_some (members?_record regular), List.flatten_cons,
        Declaration.bufferMembers_cons_record, List.map_append]
      exact congrArg _ (ih regularRest)
    · rw [not_exists] at defines
      have none := @Sections.bufferMembers_eq_nil [definition] type fun members member =>
        defines members (List.mem_singleton.1 member).symm
      rw [List.filterMap_cons_none (members?_eq_none isType regular defines),
        ← List.singleton_append, Sections.bufferMembers_append, none, List.nil_append]
      exact ih regularRest

end Definition

/-! ## What is released -/

namespace Code

/-- A variable or one of its members. -/
inductive IsPlace (name : Name) : Code → Prop
  | whole : IsPlace name name
  | part {member : String} (isMember : IsMember member) : IsPlace name (.member name member)

variable {name : Name} {place : Code}

/-- An identifier is one word. -/
theorem lexemes_name (word : IsIdentifier name.text) :
    (name : Code).lexemes = [.word name.text.toList] := by
  rw [lexemes, chars_name]
  exact Lexeme.scan_word name.toList_text_ne_nil word

/-- The lexemes of a member of a variable. -/
theorem lexemes_member (word : IsIdentifier name.text) {member : String}
    (isMember : IsMember member) :
    (Code.member name member).lexemes =
      [.word name.text.toList, .sign '.', .word member.toList] := by
  obtain ⟨nonempty, memberWord, -⟩ := isMember
  have chars : (Code.member name member).chars = name.text.toList ++ '.' :: member.toList := by
    simp [Code.member]
  rw [lexemes, chars, Lexeme.scan_append fun _ _ => rfl, Lexeme.after_of_forall word,
    Lexeme.scan_word name.toList_text_ne_nil word]
  exact congrArg (.word name.text.toList :: .sign '.' :: ·) (Lexeme.scan_word nonempty memberWord)

/-- A place starts with the name of its variable. -/
theorem IsPlace.head?_lexemes (isPlace : IsPlace name place) (word : IsIdentifier name.text) :
    place.lexemes.head? = some (.word name.text.toList) := by
  cases isPlace with
  | whole => rw [lexemes_name word]; rfl
  | part isMember => rw [lexemes_member word isMember]; rfl

/-- A place ends outside of literals. -/
theorem IsPlace.outside (isPlace : IsPlace name place) (word : IsIdentifier name.text) :
    Lexeme.after .outside place.chars = .outside := by
  have known : Names.Has [[name]] name :=
    ⟨word, [name], List.mem_singleton_self _, List.mem_singleton_self _⟩
  cases isPlace with
  | whole => exact (isPlain_variable known).outside
  | part isMember => exact ((isPlain_variable known).member isMember).outside

/-- A call of `free` releases its argument and nothing else. -/
theorem IsPlace.frees_free (isPlace : IsPlace name place) (word : IsIdentifier name.text) :
    frees ("free(" ++ place ++ ");" : Code).lexemes = [place.lexemes] := by
  have chars : ("free(" ++ place ++ ");" : Code).chars =
      'f' :: 'r' :: 'e' :: 'e' :: '(' :: (place.chars ++ [')', ';']) := by
    simp
  -- the place is a name or a member, so that the bracket behind it is a lexeme of its own
  have argument : Lexeme.scan .outside (place.chars ++ [')', ';']) =
      place.lexemes ++ [.sign ')', .sign ';'] := by
    rw [Lexeme.scan_append fun _ _ => rfl, isPlace.outside word]
    rfl
  have call : ("free(" ++ place ++ ");" : Code).lexemes =
      .word ['f', 'r', 'e', 'e'] :: .sign '(' :: (place.lexemes ++ [.sign ')', .sign ';']) := by
    rw [lexemes, chars, ← argument]
    rfl
  rw [call]
  cases isPlace with
  | whole => rw [lexemes_name word]; rfl
  | part isMember => rw [lexemes_member word isMember]; rfl

end Code

/-! ## Declarations -/

namespace Declaration

variable {declaration : Declaration} {definitions : List Definition}

/-- The buffers of a regular record have names of members. -/
theorem isMember_of_mem_bufferMembers (regular : ∀ definition ∈ definitions, definition.IsRegular)
    {type : Name} {member : String} (found : member ∈ bufferMembers definitions type) :
    IsMember member := by
  obtain ⟨definition, defined, found⟩ := List.mem_flatMap.1 found
  have regular := regular definition defined
  split at found
  · split at found
    · obtain ⟨member, inMembers, rfl⟩ := List.mem_map.1 found
      exact (regular.2 member (List.mem_of_mem_filter inMembers)).1
    · cases found
  · cases found

/-- A pointer of a declaration is the variable or one of its members. -/
theorem isPlace_of_mem_pointers (regular : ∀ definition ∈ definitions, definition.IsRegular)
    {place : Code} (found : place ∈ declaration.pointers definitions) :
    IsPlace declaration.name place := by
  cases declaration with
  | plain => cases found
  | buffer type name =>
    obtain rfl := List.mem_singleton.1 found
    exact .whole
  | record type name =>
    obtain ⟨member, inMembers, rfl⟩ := List.mem_map.1 found
    exact .part (isMember_of_mem_bufferMembers regular inMembers)

/-- The lexemes of a regular declaration's line. -/
theorem lexemes_line (regular : declaration.IsRegular) :
    declaration.line.lexemes =
      declaration.specifier.lexemes ++
        .word declaration.name.text.toList :: declaration.tail.lexemes :=
  scan_line regular

/-- A variable that is no pointer is declared without a star, and is no record. -/
theorem notMem_lexemes_line_plain {type : String} {name : Name} {initial : Code}
    (regular : (plain type name initial).IsRegular) :
    .sign '*' ∉ (plain type name initial).line.lexemes ∧
      .sign '\x7b' ∉ (plain type name initial).line.lexemes := by
  -- there are finitely many types and first values of this kind
  have types : ∀ type ∈ scalarTypes, .sign '*' ∉ (type ++ " " : Code).lexemes ∧
      .sign '\x7b' ∉ (type ++ " " : Code).lexemes := by
    decide
  have initials : ∀ initial ∈ initialTexts,
      .sign '*' ∉ (" = " ++ (initial : Code) ++ ";" : Code).lexemes ∧
        .sign '\x7b' ∉ (" = " ++ (initial : Code) ++ ";" : Code).lexemes := by
    decide
  rw [lexemes_line regular]
  obtain ⟨-, scalar, initial, start, rfl⟩ := regular
  have type := types type scalar
  have initial := initials initial start
  simp only [List.mem_append, List.mem_cons, reduceCtorEq, false_or, not_or]
  exact ⟨⟨type.1, initial.1⟩, type.2, initial.2⟩

/-- The lexemes of the line that declares a buffer. -/
theorem lexemes_line_buffer {type : String} {name : Name}
    (regular : (buffer type name).IsRegular) :
    (buffer type name).line.lexemes = (type : Code).lexemes ++
      [.sign '*', .word name.text.toList, .sign '=', .word ['N', 'U', 'L', 'L'], .sign ';'] := by
  have tail : (" = NULL;" : Code).lexemes =
      [.sign '=', .word ['N', 'U', 'L', 'L'], .sign ';'] := by
    decide
  rw [lexemes_line regular, specifier, lexemes_element type (List.mem_cons_of_mem _ regular.2),
    List.append_assoc, Declaration.tail, tail]
  rfl

/-- The line that declares a buffer has no brace. -/
theorem notMem_lexemes_line_buffer {type : String} {name : Name}
    (regular : (buffer type name).IsRegular) :
    .sign '\x7b' ∉ (buffer type name).line.lexemes := by
  have types : ∀ type ∈ "const char *" :: scalarTypes, .sign '\x7b' ∉ (type : Code).lexemes := by
    decide
  have noBrace := types type regular.2
  rw [lexemes_line_buffer regular]
  simp [noBrace]

/-- The lexemes of the line that declares a record's variable. -/
theorem lexemes_line_record {type name : Name} (regular : (record type name).IsRegular) :
    (record type name).line.lexemes = [.word type.text.toList, .word name.text.toList,
      .sign '=', .sign '\x7b', .word ['0'], .sign '\x7d', .sign ';'] := by
  have tail : (" = \x7b0\x7d;" : Code).lexemes =
      [.sign '=', .sign '\x7b', .word ['0'], .sign '\x7d', .sign ';'] := by
    decide
  rw [lexemes_line regular, specifier, Code.lexemes, scan_typeName regular.2, Declaration.tail,
    tail]
  rfl

/-- The line of a declaration declares exactly its pointers. -/
theorem pointers_lexemes (regular : declaration.IsRegular)
    (regularDefinitions : ∀ definition ∈ definitions, definition.IsRegular) :
    Memory.pointers (definitionLines definitions) declaration.line.lexemes =
      (declaration.pointers definitions).map Code.lexemes := by
  -- numbers point nowhere, buffers once, and records as often as their type has buffers
  cases declaration with
  | plain type name initial =>
    obtain ⟨noStar, noBrace⟩ := notMem_lexemes_line_plain regular
    exact pointers_eq_nil _ noStar noBrace
  | buffer type name =>
    have noBrace := notMem_lexemes_line_buffer regular
    rw [lexemes_line_buffer regular] at noBrace ⊢
    rw [pointers_of_heapVariable? _ (heapVariable?_append _ _) noBrace]
    exact congrArg (fun lexemes => [lexemes]) (lexemes_name regular.1.2).symm
  | record type name =>
    rw [lexemes_line_record regular, pointers_of_record? _ (by simp) rfl,
      Definition.flatten_members? regular.2 regularDefinitions, List.map_map, pointers,
      List.map_map]
    exact List.map_congr_left fun member found => (lexemes_member regular.1.2
      (isMember_of_mem_bufferMembers regularDefinitions found)).symm

end Declaration

end PlanCompiler
