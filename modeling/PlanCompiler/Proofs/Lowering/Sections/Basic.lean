import Mathlib.Data.List.Nodup
import PlanCompiler.Lowering.Pipeline
import PlanCompiler.Proofs.Code.Plain

/-!
# Variables at the top of the program

What the parts of a program declare at the top of its main function, and which pointers to memory
there are: variables that are buffers themselves, and members of the records that are declared.

## Main definitions

* `Sections.names`, `Sections.pointers`: the variables, and what has to be released;
* `Sections.IsTidy`: the variables are distinct and exactly their pointers are released.

## Main results

* `Sections.IsTidy.append`: sections that declare different variables are tidy together.
-/

namespace PlanCompiler

/-! ## Numbered parts -/

/-- The letter in front of a number, if a text is one. -/
def numberedBy (text : String) : Option Char :=
  match text.toList with
  | letter :: digit :: digits =>
    if (digit :: digits).all Char.isDigit then some letter else none
  | _ => none

/-- A letter with a number behind it is numbered by that letter. -/
theorem numberedBy_append_toString {letter : String} {c : Char} (spelled : letter.toList = [c])
    (k : Nat) : numberedBy (letter ++ toString k) = some c := by
  have digits := @Numeral.isDigit_of_mem_toDigits k
  have chars : (letter ++ toString k).toList = c :: Nat.toDigits 10 k := by
    rw [String.toList_append, spelled, Numeral.toList_toString, List.singleton_append]
  rw [numberedBy, chars]
  cases spelledDigits : Nat.toDigits 10 k with
  | nil => exact absurd spelledDigits Nat.toDigits_ne_nil
  | cons digit rest =>
    rw [spelledDigits] at digits
    exact if_pos (List.all_eq_true.2 fun c => digits)

/-- Texts that one letter and a number make up. -/
theorem numberedBy_of_mem_map (letter : String) {c : Char} (spelled : letter.toList = [c])
    {ι : Type} {text : ι → String} (number : ι → Nat)
    (numbered : ∀ x, text x = letter ++ toString (number x)) {xs : List ι} :
    ∀ one ∈ xs.map text, numberedBy one = some c := by
  intro one member
  obtain ⟨x, -, rfl⟩ := List.mem_map.1 member
  rw [numbered x]
  exact numberedBy_append_toString spelled (number x)

/-- Different numbers behind a letter make different texts. -/
theorem append_toString_injective {letter : String} {k k' : Nat}
    (same : letter ++ toString k = letter ++ toString k') : k = k' := by
  have chars := congrArg String.toList same
  rw [String.toList_append, String.toList_append, List.append_cancel_left_eq,
    Numeral.toList_toString, Numeral.toList_toString] at chars
  rw [← @Nat.ofDigitChars_ten_toDigits k, chars, Nat.ofDigitChars_ten_toDigits]

/-- Distinct numbers behind a letter make distinct texts. -/
theorem nodup_map_numbered {letter : String} {ks : List Nat} (distinct : ks.Nodup) :
    (ks.map fun k => letter ++ toString k).Nodup :=
  distinct.map fun _ _ => append_toString_injective

/-- Texts that are numbered differently, or of which only some are numbered, are different. -/
theorem disjoint_of_numberedBy {xs ys : List String} {x y : Option Char}
    (xsNumbered : ∀ text ∈ xs, numberedBy text = x) (ysNumbered : ∀ text ∈ ys, numberedBy text = y)
    (different : x ≠ y) : xs.Disjoint ys :=
  fun text member member' =>
    different ((xsNumbered text member).symm.trans (ysNumbered text member'))

/-- What only depends on the positions in a list. -/
theorem map_zipIdx_eq_map_range {α β : Type} {f : α × Nat → β} {g : Nat → β} {xs : List α}
    (same : ∀ x k, f (x, k) = g k) : xs.zipIdx.map f = (List.range xs.length).map g := by
  rw [List.range_eq_range', ← List.zipIdx_map_snd, List.map_map]
  exact List.map_congr_left fun (x, k) _ => same x k

namespace Name

/-- The first variables of a node that a letter and a number stand for. -/
def numbered (owner : Owner) (node : Nat) (letter : String) (n : Nat) : List Name :=
  (List.range n).map fun k => .ofNode owner node (some (letter ++ toString k))

variable {owner : Owner} {node : Nat} {letter : String} {n : Nat}

/-- The numbered variables of a node are distinct. -/
theorem nodup_numbered : (numbered owner node letter n).Nodup := by
  refine List.Nodup.map (fun k k' same => ?_) List.nodup_range
  simp only [ofNode.injEq, true_and, Option.some.injEq] at same
  exact append_toString_injective same

/-- A name is one of the first numbered variables exactly if its number is below the count. -/
theorem mem_numbered_iff {name : Name} :
    name ∈ numbered owner node letter n ↔
      ∃ k < n, name = .ofNode owner node (some (letter ++ toString k)) := by
  simp [numbered, eq_comm]

/-- A variable of a node is one of some parts, or is numbered by a letter. -/
def IsPart (owner : Owner) (node : Nat) (parts : List String) (c : Char) (name : Name) : Prop :=
  ∃ part, name = .ofNode owner node (some part) ∧ (part ∈ parts ∨ numberedBy part = some c)

/-- Parts without numbers and two different letters make different variables. -/
theorem IsPart.apart {parts parts' : List String} {c c' : Char} {name : Name}
    (isPart : name.IsPart owner node parts c)
    (other : c ≠ c' ∧ (∀ part ∈ parts, numberedBy part = none) ∧
      (∀ part ∈ parts', numberedBy part = none) ∧ ∀ part ∈ parts, part ∉ parts') :
    ¬ name.IsPart owner node parts' c' := by
  obtain ⟨part, rfl, found⟩ := isPart
  rintro ⟨part', same, found'⟩
  simp only [ofNode.injEq, true_and, Option.some.injEq] at same
  obtain rfl := same
  obtain ⟨letters, fixed, fixed', disjoint⟩ := other
  rcases found with found | found <;> rcases found' with found' | found'
  · exact disjoint _ found found'
  · exact nomatch (fixed part found).symm.trans found'
  · exact nomatch (fixed' part found').symm.trans found
  · exact letters (Option.some.inj (found.symm.trans found'))

variable {front back : List String} {c : Char}

/-- Variables of one node, some of them numbered. -/
theorem isPart_of_mem (spelled : letter.toList = [c]) {name : Name}
    (member : name ∈ front.map (fun part => .ofNode owner node (some part)) ++
      numbered owner node letter n ++ back.map fun part => .ofNode owner node (some part)) :
    name.IsPart owner node (front ++ back) c := by
  rcases List.mem_append.1 member with member | member
  · rcases List.mem_append.1 member with member | member
    · obtain ⟨part, inFront, rfl⟩ := List.mem_map.1 member
      exact ⟨part, rfl, .inl (List.mem_append_left _ inFront)⟩
    · obtain ⟨k, -, rfl⟩ := mem_numbered_iff.1 member
      exact ⟨_, rfl, .inr (numberedBy_append_toString spelled k)⟩
  · obtain ⟨part, inBack, rfl⟩ := List.mem_map.1 member
    exact ⟨part, rfl, .inl (List.mem_append_right _ inBack)⟩

/-- The fixed parts of a node and its numbered variables are all distinct. -/
theorem nodup_parts (spelled : letter.toList = [c]) (distinct : (front ++ back).Nodup)
    (fixed : ∀ part ∈ front ++ back, numberedBy part = none) :
    (front.map (fun part => ofNode owner node (some part)) ++ numbered owner node letter n ++
      back.map fun part => ofNode owner node (some part)).Nodup := by
  have injective : Function.Injective fun part => ofNode owner node (some part) := by
    intro part part' same
    simpa using same
  -- no fixed part is a letter with a number behind it
  have notNumbered : ∀ part ∈ front ++ back,
      ofNode owner node (some part) ∉ numbered owner node letter n := by
    intro part member numbered
    obtain ⟨k, -, same⟩ := mem_numbered_iff.1 numbered
    simp only [ofNode.injEq, true_and, Option.some.injEq] at same
    have none := fixed part member
    rw [same, numberedBy_append_toString spelled] at none
    cases none
  obtain ⟨distinctFront, distinctBack, disjoint⟩ := List.nodup_append'.1 distinct
  refine .append (.append (distinctFront.map injective) nodup_numbered ?_)
    (distinctBack.map injective) ?_
  · intro name member numbered
    obtain ⟨part, inFront, rfl⟩ := List.mem_map.1 member
    exact notNumbered part (List.mem_append_left _ inFront) numbered
  · intro name member mapped
    obtain ⟨part, inBack, rfl⟩ := List.mem_map.1 mapped
    rcases List.mem_append.1 member with member | member
    · obtain ⟨part', inFront, same⟩ := List.mem_map.1 member
      exact disjoint (injective same ▸ inFront) inBack
    · exact notNumbered part (List.mem_append_right _ inBack) member

end Name

/-! ## Declarations -/

/-- The name of a type of records. -/
def Name.isType : Name → Bool
  | .tableType _ | .groupsType _ => true
  | _ => false

/-- A type's name is no variable of a node. -/
theorem Name.node?_of_isType {name : Name} (isType : name.isType = true) : name.node? = none := by
  cases name <;> first | rfl | cases isType

namespace Declaration

/-- The variable that is declared. -/
def name : Declaration → Name
  | .plain _ name _ | .buffer _ name | .record _ name => name

/-- The types of values that point to nothing. -/
def scalarTypes : List String := ["size_t", "uint32_t", "int64_t", "double", "int32_t", "int"]

/-- The start values of variables. -/
def initialTexts : List String :=
  ["0", "1", "NULL", "INT64_MIN", "INT64_MAX", "HUGE_VAL", "(-HUGE_VAL)", "INT32_MIN", "INT32_MAX"]

/-- The variable of a node is declared, with a type that does not look like a pointer unless it is
a buffer. -/
def IsRegular (declaration : Declaration) : Prop :=
  (declaration.name.node?.isSome ∧ IsIdentifier declaration.name.text) ∧
    match declaration with
    | .plain type _ initial => type ∈ scalarTypes ∧ ∃ text ∈ initialTexts, initial = text
    | .buffer type _ => type ∈ "const char *" :: scalarTypes
    | .record type _ => type.isType = true

end Declaration

/-- A member has a name that is no variable, and is a pointer if it is a buffer. -/
def Member.IsRegular (member : Member) : Prop :=
  Code.IsMember member.name ∧
    if member.isBuffer then member.type ∈ "char" :: "const char *" :: Declaration.scalarTypes
    else member.type = "size_t"

/-- A size member with a proper name is regular. -/
theorem Member.isRegular_size {name : String} (isMember : Code.IsMember name) :
    (Member.size name).IsRegular := ⟨isMember, rfl⟩

/-- A buffer member of a known type with a proper name is regular. -/
theorem Member.isRegular_buffer {type name : String}
    (field : type ∈ "char" :: "const char *" :: Declaration.scalarTypes)
    (isMember : Code.IsMember name) : (Member.buffer type name).IsRegular := ⟨isMember, field⟩

/-- A type of records has regular members, and no function starts like a type. -/
def Definition.IsRegular : Definition → Prop
  | .record name members => name.isType = true ∧ ∀ member ∈ members, member.IsRegular
  | .global _ => False
  | .function comment result .. => ∃ lexeme,
      (Lexeme.scan .outside ((comment ++ [result]).headD "").toList).head? = some lexeme ∧
        lexeme ≠ .word "typedef".toList

namespace Declaration

/-- The buffers among the members of a type of records. -/
def bufferMembers (definitions : List Definition) (type : Name) : List String :=
  definitions.flatMap fun definition => match definition with
    | .record name members =>
      if name = type then (members.filter Member.isBuffer).map Member.name else []
    | _ => []

/-- The members of a type that is defined first. -/
theorem bufferMembers_cons_record (name : Name) (members : List Member)
    (rest : List Definition) :
    bufferMembers (.record name members :: rest) name =
      (members.filter Member.isBuffer).map Member.name ++ bufferMembers rest name := by
  rw [bufferMembers, List.flatMap_cons]
  exact congrArg (· ++ _) (if_pos rfl)

/-- The names of members that are all buffers. -/
theorem map_name_filter_isBuffer {ι : Type} (xs : List ι) (type name : ι → String) :
    ((xs.map fun x => Member.buffer (type x) (name x)).filter Member.isBuffer).map Member.name =
      xs.map name := by
  rw [List.filter_eq_self.2, List.map_map]
  · rfl
  · intro member found
    obtain ⟨x, -, rfl⟩ := List.mem_map.1 found
    rfl

/-- The pointers to memory that a declaration introduces. -/
def pointers (definitions : List Definition) : Declaration → List Code
  | .plain .. => []
  | .buffer _ name => [name]
  | .record type name => (bufferMembers definitions type).map fun member => .member name member

end Declaration

namespace Sections

/-- The variables that are declared. -/
def names (sections : Sections) : List Name := sections.declarations.map Declaration.name

/-- The pointers to memory that are declared. -/
def pointers (sections : Sections) : List Code :=
  sections.declarations.flatMap (Declaration.pointers sections.definitions)

/-- The variables of sections in a row. -/
@[simp]
theorem names_append (a b : Sections) : (a ++ b).names = a.names ++ b.names := List.map_append

/-- The empty sections declare nothing. -/
@[simp]
theorem names_empty : ({} : Sections).names = [] := rfl

/-- A plain variable's section declares it. -/
@[simp]
theorem names_plain (type : String) (name : Name) (initial : Code) :
    (plain type name initial).names = [name] := rfl

/-- A buffer's section declares it. -/
@[simp]
theorem names_buffer (type : String) (name : Name) : (buffer type name).names = [name] := rfl

/-- A vector's section declares it. -/
@[simp]
theorem names_vector (type : String) (name : Name) : (vector type name).names = [name] := rfl

/-- The variables of several sections, in order. -/
@[simp]
theorem names_concat (all : List Sections) : (concat all).names = all.flatMap names := by
  induction all with
  | nil => rfl
  | cons first rest ih => rw [concat, names_append, ih, List.flatMap_cons]

/-- Parts that declare one numbered variable each. -/
theorem names_concat_numbered {ι : Type} {part : ι × Nat → Sections} {owner : Owner} {node : Nat}
    {letter : String} {xs : List ι}
    (each : ∀ x k, (part (x, k)).names = [.ofNode owner node (some (letter ++ toString k))]) :
    (concat (xs.zipIdx.map part)).names = Name.numbered owner node letter xs.length := by
  rw [names_concat, List.flatMap_map]
  refine (List.flatMap_congr fun entry _ => each entry.1 entry.2).trans ?_
  exact List.map_eq_flatMap.symm.trans (map_zipIdx_eq_map_range fun _ _ => rfl)

/-- All variables that some sections need are declared at the top of the program. -/
def IsVisible (base : List Name) (sections : Sections) : Prop :=
  ∀ name ∈ sections.names, Scope.Names.Has [base] name

/-- Sections in a row are visible exactly if each of them is. -/
theorem isVisible_append {base : List Name} {a b : Sections} :
    (a ++ b).IsVisible base ↔ a.IsVisible base ∧ b.IsVisible base := by
  rw [IsVisible, names_append]
  exact List.forall_mem_append

/-- Empty sections in front change nothing. -/
theorem nil_append (sections : Sections) : {} ++ sections = sections := rfl

/-- Empty sections behind change nothing. -/
theorem append_nil (sections : Sections) : sections ++ {} = sections := by
  show Sections.mk (_ ++ []) (_ ++ []) (_ ++ []) (_ ++ []) = _
  simp only [List.append_nil]

/-- Appending sections is associative. -/
theorem append_assoc (a b c : Sections) : a ++ b ++ c = a ++ (b ++ c) := by
  show Sections.mk (_ ++ _ ++ _) (_ ++ _ ++ _) (_ ++ _ ++ _) (_ ++ _ ++ _) = _
  simp only [List.append_assoc]
  rfl

/-- The variables at the top are regular and distinct, and what is released are their pointers.
All that is declared and defined belongs to the sections. -/
structure IsTidy (owned : Name → Prop) (sections : Sections) : Prop where
  /-- Every declaration is regular. -/
  regular : ∀ declaration ∈ sections.declarations, declaration.IsRegular
  /-- No variable is declared twice. -/
  distinct : sections.names.Nodup
  /-- Every definition is regular. -/
  regularDefinitions : ∀ definition ∈ sections.definitions, definition.IsRegular
  /-- The types of all records are defined. -/
  defined : ∀ type name, .record type name ∈ sections.declarations →
    ∃ members, .record type members ∈ sections.definitions
  /-- No record has two buffers with one name. -/
  distinctMembers : ∀ type name, .record type name ∈ sections.declarations →
    (Declaration.bufferMembers sections.definitions type).Nodup
  /-- The pointers are released in the order of their declarations. -/
  released : sections.released = sections.pointers
  /-- The variables belong to the sections. -/
  ownsNames : ∀ name ∈ sections.names, owned name
  /-- So do the types of the records among them. -/
  ownsTypes : ∀ type name, .record type name ∈ sections.declarations → owned type
  /-- So do the types that are defined. -/
  ownsRecords : ∀ type members, .record type members ∈ sections.definitions → owned type

section

variable {a b : Sections} {owned owned' : Name → Prop}

/-- Sections tidy for some names are tidy for more names. -/
theorem IsTidy.mono (tidy : a.IsTidy owned) (wider : ∀ name, owned name → owned' name) :
    a.IsTidy owned' :=
  { tidy with
    ownsNames := fun name member => wider name (tidy.ownsNames name member)
    ownsTypes := fun type name member => wider type (tidy.ownsTypes type name member)
    ownsRecords := fun type members member => wider type (tidy.ownsRecords type members member) }

/-- The members of a type are looked up where it is defined. -/
theorem bufferMembers_append (front back : List Definition) (type : Name) :
    Declaration.bufferMembers (front ++ back) type =
      Declaration.bufferMembers front type ++ Declaration.bufferMembers back type :=
  List.flatMap_append

/-- A record type that is not defined has no buffers. -/
theorem bufferMembers_eq_nil {definitions : List Definition} {type : Name}
    (undefined : ∀ members, .record type members ∉ definitions) :
    Declaration.bufferMembers definitions type = [] := by
  rw [Declaration.bufferMembers, List.flatMap_eq_nil_iff]
  intro definition member
  split
  · rename_i name members
    rw [if_neg]
    rintro rfl
    exact undefined members member
  · rfl

/-- The pointers depend only on the buffers of the record types that are declared. -/
theorem pointers_eq_of_forall {definitions definitions' : List Definition}
    {declarations : List Declaration}
    (same : ∀ type name, .record type name ∈ declarations →
      Declaration.bufferMembers definitions type = Declaration.bufferMembers definitions' type) :
    declarations.flatMap (Declaration.pointers definitions) =
      declarations.flatMap (Declaration.pointers definitions') := by
  rw [List.flatMap_def, List.flatMap_def]
  refine congrArg _ (List.map_congr_left fun declaration member => ?_)
  cases declaration with
  | plain | buffer => rfl
  | record type name => rw [Declaration.pointers, Declaration.pointers, same type name member]

section

variable (tidy : a.IsTidy owned) (tidy' : b.IsTidy owned')
  (apart : ∀ name, owned name → ¬ owned' name)
include tidy tidy' apart

/-- The records of the first sections find their members among the definitions of these. -/
theorem IsTidy.bufferMembers_left :
    ∀ type name, .record type name ∈ a.declarations →
      Declaration.bufferMembers (a.definitions ++ b.definitions) type =
        Declaration.bufferMembers a.definitions type := by
  intro type name member
  rw [bufferMembers_append, @bufferMembers_eq_nil b.definitions, List.append_nil]
  exact fun members defined =>
    apart type (tidy.ownsTypes type name member) (tidy'.ownsRecords type members defined)

/-- The records of the second sections find their members among the definitions of these. -/
theorem IsTidy.bufferMembers_right :
    ∀ type name, .record type name ∈ b.declarations →
      Declaration.bufferMembers (a.definitions ++ b.definitions) type =
        Declaration.bufferMembers b.definitions type := by
  intro type name member
  rw [bufferMembers_append, @bufferMembers_eq_nil a.definitions, List.nil_append]
  exact fun members defined =>
    apart type (tidy.ownsRecords type members defined) (tidy'.ownsTypes type name member)

/-- The pointers of sections that define different things. -/
theorem IsTidy.pointers_append : (a ++ b).pointers = a.pointers ++ b.pointers := by
  have all : (a ++ b).pointers = (a.declarations ++ b.declarations).flatMap
      (Declaration.pointers (a.definitions ++ b.definitions)) := rfl
  rw [all, List.flatMap_append, pointers_eq_of_forall (tidy.bufferMembers_left tidy' apart),
    pointers_eq_of_forall (tidy.bufferMembers_right tidy' apart)]
  rfl

/-- Sections that declare and define different things are tidy together. -/
theorem IsTidy.append : (a ++ b).IsTidy fun name => owned name ∨ owned' name := by
  constructor
  case regular =>
    intro declaration member
    exact (List.mem_append.1 member).elim (tidy.regular _) (tidy'.regular _)
  case distinct =>
    rw [names_append]
    exact List.Nodup.append tidy.distinct tidy'.distinct fun name member member' =>
      apart name (tidy.ownsNames name member) (tidy'.ownsNames name member')
  case regularDefinitions =>
    intro definition member
    exact (List.mem_append.1 member).elim (tidy.regularDefinitions _) (tidy'.regularDefinitions _)
  case defined =>
    intro type name member
    exact (List.mem_append.1 member).elim
      (fun member => (tidy.defined type name member).imp fun _ => List.mem_append_left _)
      fun member => (tidy'.defined type name member).imp fun _ => List.mem_append_right _
  case distinctMembers =>
    intro type name member
    rcases List.mem_append.1 member with member | member
    -- a type is defined on one side only, since the names are apart
    · exact (tidy.bufferMembers_left tidy' apart type name member).symm ▸
        tidy.distinctMembers type name member
    · exact (tidy.bufferMembers_right tidy' apart type name member).symm ▸
        tidy'.distinctMembers type name member
  case released =>
    rw [tidy.pointers_append tidy' apart, ← tidy.released, ← tidy'.released]
    rfl
  case ownsNames =>
    intro name member
    rw [names_append] at member
    exact (List.mem_append.1 member).imp (tidy.ownsNames _) (tidy'.ownsNames _)
  case ownsTypes =>
    intro type name member
    exact (List.mem_append.1 member).imp (tidy.ownsTypes _ _) (tidy'.ownsTypes _ _)
  case ownsRecords =>
    intro type members member
    exact (List.mem_append.1 member).imp (tidy.ownsRecords _ _) (tidy'.ownsRecords _ _)

end

/-- The empty sections are tidy. -/
theorem IsTidy.empty : ({} : Sections).IsTidy owned where
  regular := List.forall_mem_nil _
  distinct := List.nodup_nil
  regularDefinitions := List.forall_mem_nil _
  defined := fun _ _ member => absurd member List.not_mem_nil
  distinctMembers := fun _ _ member => absurd member List.not_mem_nil
  released := rfl
  ownsNames := List.forall_mem_nil _
  ownsTypes := fun _ _ member => absurd member List.not_mem_nil
  ownsRecords := fun _ _ member => absurd member List.not_mem_nil

/-- Sections that belong to different numbers are tidy together. -/
theorem IsTidy.concat {ι : Type} {numbered : Name → Option Nat} {part : ι → Sections}
    {number : ι → Nat} {all : List ι} (distinct : (all.map number).Nodup)
    (each : ∀ x ∈ all, (part x).IsTidy (numbered · = some (number x))) :
    (concat (all.map part)).IsTidy fun name => ∃ x ∈ all, numbered name = some (number x) := by
  induction all with
  | nil => exact .empty
  | cons first rest ih =>
    rw [List.map_cons, List.nodup_cons] at distinct
    rw [List.forall_mem_cons] at each
    refine (each.1.append (ih distinct.2 each.2) ?_).mono fun name belongs => ?_
    · rintro name found ⟨x, member, found'⟩
      exact distinct.1 (List.mem_map.2 ⟨x, member, Option.some.inj (found'.symm.trans found)⟩)
    · rcases belongs with found | ⟨x, member, found⟩
      · exact ⟨first, List.mem_cons_self, found⟩
      · exact ⟨x, List.mem_cons_of_mem _ member, found⟩

end

/-! ## Sections without records -/

/-- There are no records and no types, and all buffers are released. -/
structure IsSimple (sections : Sections) : Prop where
  /-- Every declaration is regular. -/
  regular : ∀ declaration ∈ sections.declarations, declaration.IsRegular
  /-- None of them is a record. -/
  noRecord : ∀ type name, .record type name ∉ sections.declarations
  /-- No types are defined. -/
  noDefinition : sections.definitions = []
  /-- The buffers are released in the order of their declarations. -/
  released : sections.released = sections.pointers

section

variable {a b : Sections}

/-- The empty sections are simple. -/
theorem IsSimple.empty : IsSimple {} :=
  ⟨List.forall_mem_nil _, fun _ _ => List.not_mem_nil, rfl, rfl⟩

/-- Simple sections in a row are simple. -/
theorem IsSimple.append (first : a.IsSimple) (second : b.IsSimple) : (a ++ b).IsSimple := by
  have definitions : (a ++ b).definitions = a.definitions ++ b.definitions := rfl
  have declarations : (a ++ b).declarations = a.declarations ++ b.declarations := rfl
  refine ⟨?_, ?_, ?_, ?_⟩
  · intro declaration member
    exact (List.mem_append.1 member).elim (first.regular _) (second.regular _)
  · intro type name member
    exact (List.mem_append.1 member).elim (first.noRecord type name) (second.noRecord type name)
  · rw [definitions, first.noDefinition, second.noDefinition, List.append_nil]
  · rw [pointers, definitions, declarations, List.flatMap_append, second.noDefinition,
      List.append_nil, first.noDefinition]
    refine congrArg₂ _ (first.released.trans ?_) (second.released.trans ?_)
    · rw [pointers, first.noDefinition]
    · rw [pointers, second.noDefinition]

/-- Any number of simple sections are simple together. -/
theorem IsSimple.concat {all : List Sections} (each : ∀ one ∈ all, one.IsSimple) :
    (concat all).IsSimple := by
  induction all with
  | nil => exact .empty
  | cons first rest ih =>
    exact (each first List.mem_cons_self).append
      (ih fun one member => each one (List.mem_cons_of_mem _ member))

variable {type : String} {owner : Owner} {node : Nat} {part : String}

/-- The section of a plain variable of scalar type is simple. -/
theorem IsSimple.plain {initial : String} (word : IsIdentifier part)
    (scalar : type ∈ Declaration.scalarTypes) (start : initial ∈ Declaration.initialTexts) :
    (plain type (.ofNode owner node (some part)) initial).IsSimple := by
  have regular : Declaration.IsRegular (.plain type (.ofNode owner node (some part)) initial) :=
    ⟨⟨rfl, Name.isIdentifier_ofNode owner node word⟩, scalar, initial, start, rfl⟩
  exact ⟨List.forall_mem_singleton.2 regular,
    fun _ _ member => Declaration.noConfusion (List.mem_singleton.1 member), rfl, rfl⟩

/-- The section of a buffer of a known element type is simple. -/
theorem IsSimple.buffer (word : IsIdentifier part)
    (element : type ∈ "const char *" :: Declaration.scalarTypes) :
    (buffer type (.ofNode owner node (some part))).IsSimple := by
  have regular : Declaration.IsRegular (.buffer type (.ofNode owner node (some part))) :=
    ⟨⟨rfl, Name.isIdentifier_ofNode owner node word⟩, element⟩
  exact ⟨List.forall_mem_singleton.2 regular,
    fun _ _ member => Declaration.noConfusion (List.mem_singleton.1 member), rfl, rfl⟩

/-- The section of a vector of a known element type is simple. -/
theorem IsSimple.vector (word : IsIdentifier part)
    (element : type ∈ "const char *" :: Declaration.scalarTypes) :
    (vector type (.ofNode owner node (some part))).IsSimple :=
  ⟨(IsSimple.buffer word element).regular, (IsSimple.buffer word element).noRecord, rfl, rfl⟩

/-- Sections without records are tidy if their variables are distinct. -/
theorem IsSimple.isTidy (simple : a.IsSimple) (distinct : a.names.Nodup) :
    a.IsTidy (· ∈ a.names) :=
  { regular := simple.regular
    distinct
    regularDefinitions := fun definition member => by
      rw [simple.noDefinition] at member
      cases member
    defined := fun type name member => absurd member (simple.noRecord type name)
    distinctMembers := fun type name member => absurd member (simple.noRecord type name)
    released := simple.released
    ownsNames := fun _ => id
    ownsTypes := fun type name member => absurd member (simple.noRecord type name)
    ownsRecords := fun type members member => by
      rw [simple.noDefinition] at member
      cases member }

/-- The variables of a node are distinct if their parts are, and if no other part has the form of
the numbered ones. -/
theorem IsSimple.isTidy_parts (simple : a.IsSimple) {letter : String} {n : Nat}
    {front back : List String} {c : Char} (spelled : letter.toList = [c])
    (names : a.names = front.map (fun part => .ofNode owner node (some part)) ++
      Name.numbered owner node letter n ++ back.map fun part => .ofNode owner node (some part))
    (distinct : (front ++ back).Nodup) (fixed : ∀ part ∈ front ++ back, numberedBy part = none) :
    a.IsTidy (Name.IsPart owner node (front ++ back) c) := by
  refine (simple.isTidy ?_).mono fun name member => ?_
  · rw [names]
    exact Name.nodup_parts spelled distinct fixed
  · rw [names] at member
    exact Name.isPart_of_mem spelled member

end

end Sections

end PlanCompiler
