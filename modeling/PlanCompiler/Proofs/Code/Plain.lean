import PlanCompiler.Proofs.Code.Scope

/-!
# Parts of lines

A part of a line is plain if it mentions only variables that are visible, and if no line becomes a
declaration, or opens or closes a block, by consisting of it. Names, literals and what is made of
them are plain; so are all simple statements. Code that puts plain parts between fixed texts is
plain if a check of the fixed texts alone succeeds, whatever the parts are.

## Main definitions

* `Code.IsPlain`: a part of a line is plain;
* `Code.Fits`: fixed texts with plain parts between them.

## Main results

* `Code.Fits.isPlain`: such code is plain if its fixed texts pass a check.
-/

namespace PlanCompiler

/-! ## The text of code -/

namespace Code

/-- The characters of code. -/
def chars (code : Code) : List Char := code.text.toList

/-- The characters of code are those of its pieces in order. -/
theorem chars_eq_flatMap (code : Code) :
    code.chars = code.pieces.flatMap fun piece => piece.toText.toList := by
  rw [chars, text, String.toList_join, List.flatMap_map]

/-- The characters of two codes in a row. -/
@[simp]
theorem chars_append (a b : Code) : (a ++ b).chars = a.chars ++ b.chars := by
  rw [chars_eq_flatMap, pieces_append, List.flatMap_append, ← chars_eq_flatMap, ← chars_eq_flatMap]

/-- Empty code has no characters. -/
@[simp]
theorem chars_empty : Code.empty.chars = [] := rfl

/-- The characters of a fixed text. -/
@[simp]
theorem chars_text (fixed : String) : (fixed : Code).chars = fixed.toList := by
  rw [chars_eq_flatMap, List.flatMap_singleton, Piece.toText]

/-- The characters of a name. -/
@[simp]
theorem chars_name (name : Name) : (name : Code).chars = name.text.toList := by
  rw [chars_eq_flatMap, List.flatMap_singleton, Piece.toText]

/-- The characters of a string literal, quotes included. -/
@[simp]
theorem chars_literal (contents : String) :
    (literal contents).chars = (stringLiteral contents).toList := by
  rw [chars_eq_flatMap, literal, List.flatMap_singleton, Piece.toText]

end Code

namespace Scope

open Lexeme

/-! ## What is known of a part of a line -/

/-- The names declared in open scopes, innermost first. -/
abbrev Names := List (List Name)

/-- A word names a variable that is declared in an open scope. -/
def Names.Sees (scopes : Names) (word : List Char) : Prop :=
  ∃ scope ∈ scopes, ∃ name ∈ scope, name.text.toList = word

/-- A name is one word, and it is declared in an open scope. -/
def Names.Has (scopes : Names) (name : Name) : Prop :=
  IsIdentifier name.text ∧ ∃ scope ∈ scopes, name ∈ scope

/-- All names that are declared in some scopes are declared in others. -/
def Names.Below (scopes scopes' : Names) : Prop :=
  ∀ name, (∃ scope ∈ scopes, name ∈ scope) → ∃ scope ∈ scopes', name ∈ scope

section

variable {scopes scopes' scopes'' : Names}

/-- Being below is transitive. -/
theorem Names.Below.trans (first : scopes.Below scopes') (second : scopes'.Below scopes'') :
    scopes.Below scopes'' :=
  fun name declared => second name (first name declared)

/-- A new innermost scope is below the scopes around it. -/
theorem Names.below_enter (scopes : Names) (scope : List Name) : scopes.Below (scope :: scopes) :=
  fun _ ⟨found, isOpen, member⟩ => ⟨found, List.mem_cons_of_mem _ isOpen, member⟩

/-- A declaration in the innermost scope leads below. -/
theorem Names.below_declare (name : Name) (here : List Name) (outer : Names) :
    Names.Below (here :: outer) ((name :: here) :: outer) := by
  rintro known ⟨scope, isOpen, member⟩
  rcases List.mem_cons.1 isOpen with rfl | isOpen
  · exact ⟨_, List.mem_cons_self, List.mem_cons_of_mem _ member⟩
  · exact ⟨scope, List.mem_cons_of_mem _ isOpen, member⟩

/-- A name that is known stays known below. -/
theorem Names.Has.mono {name : Name} (known : scopes.Has name) (below : scopes.Below scopes') :
    scopes'.Has name :=
  ⟨known.1, below name known.2⟩

/-- A name that is known stays known in a further scope. -/
theorem Names.Has.enter {name : Name} (known : scopes.Has name) (scope : List Name) :
    Names.Has (scope :: scopes) name :=
  known.mono (scopes.below_enter scope)

/-- A name just declared is known. -/
theorem Names.has_declared {name : Name} (word : IsIdentifier name.text) (here : List Name)
    (outer : Names) : Names.Has ((name :: here) :: outer) name :=
  ⟨word, _, List.mem_cons_self, List.mem_cons_self⟩

/-- A word that is seen stays seen below. -/
theorem Names.Sees.mono {word : List Char} (sees : scopes.Sees word)
    (below : scopes.Below scopes') : scopes'.Sees word := by
  obtain ⟨scope, isOpen, name, member, spelled⟩ := sees
  obtain ⟨scope', isOpen', member'⟩ := below name ⟨scope, isOpen, member⟩
  exact ⟨scope', isOpen', name, member', spelled⟩

end

/-- What the next part of a line has to know of what stands before it; each of the flags may be
set although what it says is not the case. -/
structure Shape where
  /-- There is only one word. -/
  single : Bool
  /-- The last character belongs to a word. -/
  ends : Bool
  /-- The last lexeme is a brace. -/
  braced : Bool
deriving DecidableEq, Repr

/-- A lexeme opens or closes a block. -/
def isBrace : Lexeme → Bool
  | .sign c => c = '\x7b' ∨ c = '\x7d'
  | _ => false

/-- The start of a line that declares nothing: at most one word, and then another lexeme than
those in front of a declared name. -/
def leads (single : Bool) : List Lexeme → Bool
  | [] => false
  | [.word chars] => single && chars != ['f', 'o', 'r']
  | .word chars :: next :: _ => !isSpecifier next && chars != ['f', 'o', 'r']
  | _ => true

/-- A part of a line that declares nothing, with what is known of it. -/
structure Forms (scopes : Names) (chars : List Char) (shape : Shape) : Prop where
  /-- It does not end inside of a string literal. -/
  outside : after .outside chars = .outside
  /-- It does not look like a declaration. -/
  undeclared : leads shape.single (scan .outside chars) = true
  /-- Its last character is known. -/
  ends : endsWord chars = true → shape.ends = true
  /-- Its last lexeme is known. -/
  braced : (scan .outside chars).getLast?.any isBrace = true → shape.braced = true
  /-- All variables that it mentions are visible. -/
  sees : ∀ chars', .word chars' ∈ scan .outside chars → isVariable chars' = true →
    scopes.Sees chars'
  /-- It goes on in the same line. -/
  sameLine : '\n' ∉ chars

/-- What is known of a part of a line after more text has come. -/
def Shape.extend (shape : Shape) (chars : List Char) : Shape :=
  { single := shape.single && (scan .outside chars).isEmpty
    ends := if chars.isEmpty then shape.ends else endsWord chars
    braced := (scan .outside chars).getLast?.elim shape.braced isBrace }

/-- More text does not turn a part of a line into a declaration. -/
theorem leads_append {single : Bool} {front back : List Lexeme} (front_leads : leads single front)
    (next : single = true → back.head?.any isSpecifier = false) :
    leads (single && back.isEmpty) (front ++ back) = true := by
  match front, back with
  | [.word chars], [] => simpa [leads] using front_leads
  | [.word chars], lexeme :: rest =>
    rw [leads, Bool.and_eq_true] at front_leads
    have other : isSpecifier lexeme = false := next front_leads.1
    simp [leads, other, front_leads.2]
  | .word chars :: second :: front, back => exact front_leads
  | .literal :: front, back | .sign c :: front, back => simp [leads]

section

variable {scopes : Names} {front back : List Char} {shape : Shape}

/-- A part of a line that goes on with a text. -/
theorem Forms.append (forms : Forms scopes front shape)
    (outside : after .outside back = .outside)
    (apart : shape.ends = true → startsWord back = false)
    (next : shape.single = true → (scan .outside back).head?.any isSpecifier = false)
    (sees : ∀ chars, .word chars ∈ scan .outside back → isVariable chars = true →
      scopes.Sees chars)
    (sameLine : '\n' ∉ back) : Forms scopes (front ++ back) (shape.extend back) := by
  -- a word that ends the front does not go on behind it, so the lexemes of both stand as they are
  have scanned : scan .outside (front ++ back) = scan .outside front ++ scan .outside back := by
    rw [scan_append fun _ ends => apart (forms.ends ends), forms.outside]
  constructor
  case outside => rw [after_append, forms.outside, outside]
  case undeclared =>
    rw [scanned]
    exact leads_append forms.undeclared next
  case ends =>
    rw [Shape.extend]
    cases back with
    | nil => simpa using forms.ends
    | cons c back => exact fun ends => (endsWord_append _ (List.cons_ne_nil _ _)).symm.trans ends
  case braced =>
    rw [scanned, Shape.extend, List.getLast?_append]
    cases (scan .outside back).getLast? with
    | none => exact forms.braced
    | some lexeme => exact id
  case sees =>
    intro chars member ofNode
    rw [scanned, List.mem_append] at member
    exact member.elim (fun member => forms.sees chars member ofNode)
      fun member => sees chars member ofNode
  case sameLine =>
    rw [List.mem_append, not_or]
    exact ⟨forms.sameLine, sameLine⟩

/-- Less may be known of a part of a line. -/
theorem Forms.weaken {shape' : Shape} (forms : Forms scopes front shape)
    (single : shape.single = true → shape'.single = true)
    (ends : shape.ends = true → shape'.ends = true)
    (braced : shape.braced = true → shape'.braced = true) : Forms scopes front shape' := by
  refine { forms with
    undeclared := ?_
    ends := fun h => ends (forms.ends h)
    braced := fun h => braced (forms.braced h) }
  have leading := forms.undeclared
  -- only for a single word does it matter whether there is another one
  match scanned : scan .outside front with
  | [] => rw [scanned] at leading; cases leading
  | [.word chars] =>
    rw [scanned, leads, Bool.and_eq_true] at leading
    rw [leads, Bool.and_eq_true]
    exact ⟨single leading.1, leading.2⟩
  | .word chars :: next :: rest => rw [scanned] at leading; exact leading
  | .literal :: rest | .sign c :: rest => rfl

/-- A front that forms a shape forms it below too. -/
theorem Forms.mono {scopes' : Names} (forms : Forms scopes front shape)
    (below : scopes.Below scopes') : Forms scopes' front shape :=
  { forms with sees := fun chars member ofNode => (forms.sees chars member ofNode).mono below }

end

end Scope

/-! ## Plain parts -/

namespace Code

/-- A part of a line, or a line, that declares nothing, does not open or close a block and only
mentions variables that are visible. -/
def IsPlain (scopes : Scope.Names) (code : Code) : Prop :=
  Scope.Forms scopes code.chars { single := true, ends := true, braced := false }

/-- What some code is put together from. -/
inductive Part where
  /-- Fixed text. -/
  | fixed (text : String)
  /-- Any plain part. -/
  | hole
deriving DecidableEq, Repr

/-- Code is put together from fixed texts and plain parts; the last part comes first. -/
inductive Fits (scopes : Scope.Names) : List Part → Code → Prop where
  | start (text : String) : Fits scopes [.fixed text] text
  | hole {code : Code} : code.IsPlain scopes → Fits scopes [.hole] code
  | text {parts : List Part} {code : Code} : Fits scopes parts code → (text : String) →
      Fits scopes (.fixed text :: parts) (code ++ text)
  | optional {parts : List Part} {code more : Code} : Fits scopes parts code →
      more.IsPlain scopes ∨ more = .empty → Fits scopes (.hole :: parts) (code ++ more)

namespace Part

open Lexeme Scope

/-- A text stays in the line, closes its string literals and has no variables of nodes. -/
def isNeutral (chars : List Char) : Bool :=
  after .outside chars = .outside ∧ !chars.contains '\n' ∧
    (scan .outside chars).all fun lexeme => match lexeme with
      | .word chars => !isVariable chars
      | _ => true

/-- There is one lexeme, and it is a word. -/
def isSingle : List Lexeme → Bool
  | [.word _] => true
  | _ => false

/-- What is known of a plain part. -/
def holeShape : Shape := { single := true, ends := true, braced := false }

/-- What is known of a part that comes first. -/
def first? : Part → Option Shape
  | .hole => some holeShape
  | .fixed text =>
    let chars := text.toList
    let lexemes := scan .outside chars
    if isNeutral chars ∧ leads (isSingle lexemes) lexemes then
      some
        { single := isSingle lexemes
          ends := endsWord chars
          braced := lexemes.getLast?.any isBrace }
    else none

/-- What is known when a part follows others. -/
def next? (shape : Shape) : Part → Option Shape
  | .hole =>
    if shape.single ∨ shape.ends then none
    else some { single := false, ends := true, braced := shape.braced }
  | .fixed text =>
    let chars := text.toList
    if isNeutral chars ∧ !(shape.ends && startsWord chars) ∧
        !(shape.single && (scan .outside chars).head?.any isSpecifier) then
      some (shape.extend chars)
    else none

/-- What is known of some parts, the last one first. -/
def shape? : List Part → Option Shape
  | [] => none
  | [part] => part.first?
  | part :: earlier => (shape? earlier).bind part.next?

variable {scopes : Names} {shape : Shape}

/-- A neutral text stays outside literals, on its line, and mentions no variable. -/
theorem isNeutral_iff {chars : List Char} :
    isNeutral chars = true ↔ after .outside chars = .outside ∧ '\n' ∉ chars ∧
      ∀ word, .word word ∈ scan .outside chars → isVariable word = false := by
  simp only [isNeutral, decide_eq_true_eq, Bool.not_eq_true', List.contains_eq_mem,
    decide_eq_false_iff_not, List.all_eq_true]
  refine and_congr_right fun _ => and_congr_right fun _ => ⟨fun all word member => ?_, ?_⟩
  · simpa using all _ member
  · intro all lexeme member
    cases lexeme with
    | word chars => simpa using all chars member
    | literal | sign c => rfl

/-- A fixed text forms the shape that is computed for a first part. -/
theorem forms_of_first? {text : String} (found : (fixed text).first? = some shape) :
    Forms scopes text.toList shape := by
  rw [first?] at found
  split at found
  · rename_i passed
    obtain ⟨neutral, undeclared⟩ := passed
    obtain ⟨outside, sameLine, noVariable⟩ := isNeutral_iff.1 neutral
    obtain rfl := Option.some.inj found
    exact ⟨outside, undeclared, id, id, fun word member ofNode =>
      absurd ofNode (by rw [noVariable word member]; decide), sameLine⟩
  · cases found

variable {front : List Char} {shape' : Shape}

/-- A fixed text takes a front to the next shape. -/
theorem forms_of_next?_fixed (forms : Forms scopes front shape) {text : String}
    (found : next? shape (fixed text) = some shape') :
    Forms scopes (front ++ text.toList) shape' := by
  rw [next?] at found
  split at found
  · rename_i passed
    simp only [Bool.not_eq_true', Bool.and_eq_false_imp] at passed
    obtain ⟨neutral, apart, next⟩ := passed
    obtain ⟨outside, sameLine, noVariable⟩ := isNeutral_iff.1 neutral
    obtain rfl := Option.some.inj found
    exact forms.append outside apart next (fun word member ofNode =>
      absurd ofNode (by rw [noVariable word member]; decide)) sameLine
  · cases found

/-- Plain code in a hole takes a front to the next shape. -/
theorem forms_of_next?_hole (forms : Forms scopes front shape) {code : Code}
    (plain : code.IsPlain scopes ∨ code = .empty) (found : next? shape hole = some shape') :
    Forms scopes (front ++ code.chars) shape' := by
  rw [next?] at found
  split at found
  · cases found
  rename_i ready
  rw [not_or, Bool.not_eq_true, Bool.not_eq_true] at ready
  obtain rfl := Option.some.inj found
  rcases plain with plain | rfl
  · have extended := forms.append plain.outside (fun ends => absurd ends (by simp [ready.2]))
      (fun single => absurd single (by simp [ready.1])) plain.sees plain.sameLine
    refine extended.weaken (fun single => absurd single (by simp [Shape.extend, ready.1]))
      (fun _ => rfl) fun braced => ?_
    -- a plain part has a last lexeme, which is no brace
    have undeclared := plain.undeclared
    have noBrace := plain.braced
    rw [Shape.extend] at braced
    cases last : (scan .outside code.chars).getLast? with
    | none =>
      rw [List.getLast?_eq_none_iff] at last
      rw [last] at undeclared
      cases undeclared
    | some lexeme =>
      rw [last] at noBrace braced
      exact absurd (noBrace braced) (by decide)
  · rw [chars_empty, List.append_nil]
    exact forms.weaken (fun single => absurd single (by simp [ready.1])) (fun _ => rfl) id

end Part

/-- Plain code fills a hole. -/
theorem Fits.code {scopes : Scope.Names} {parts : List Part} {front back : Code}
    (fits : Fits scopes parts front) (plain : back.IsPlain scopes) :
    Fits scopes (.hole :: parts) (front ++ back) :=
  .optional fits (.inl plain)

namespace Fits

variable {scopes : Scope.Names} {parts : List Part} {code : Code}

/-- Only code that has a part fits. -/
theorem parts_ne_nil (fits : Fits scopes parts code) : parts ≠ [] := by
  cases fits <;> exact List.cons_ne_nil _ _

/-- What a check of the fixed texts finds out is true of the code. -/
theorem forms (fits : Fits scopes parts code) {shape : Scope.Shape}
    (found : Part.shape? parts = some shape) : Scope.Forms scopes code.chars shape := by
  -- the check goes through the parts in the order in which the code is put together
  induction fits generalizing shape with
  | start text =>
    rw [chars_text]
    exact Part.forms_of_first? found
  | hole plain =>
    obtain rfl := Option.some.inj found
    exact plain
  | text fits text ih =>
    obtain ⟨part, earlier, rfl⟩ := List.exists_cons_of_ne_nil fits.parts_ne_nil
    obtain ⟨before, foundBefore, found⟩ := Option.bind_eq_some_iff.1 found
    rw [chars_append, chars_text]
    exact Part.forms_of_next?_fixed (ih foundBefore) found
  | optional fits plain ih =>
    obtain ⟨part, earlier, rfl⟩ := List.exists_cons_of_ne_nil fits.parts_ne_nil
    obtain ⟨before, foundBefore, found⟩ := Option.bind_eq_some_iff.1 found
    rw [chars_append]
    exact Part.forms_of_next?_hole (ih foundBefore) plain found

/-- Code with plain parts between fixed texts is plain if its fixed texts pass a check. -/
theorem isPlain (fits : Fits scopes parts code)
    (passed : (Part.shape? parts).any (!·.braced) = true := by rfl) :
    code.IsPlain scopes := by
  obtain ⟨shape, found, noBrace⟩ := (Option.any_eq_true _ _).1 passed
  exact (fits.forms found).weaken (fun _ => rfl) (fun _ => rfl)
    fun braced => absurd braced (by simpa using noBrace)

end Fits

/-! ## What plain parts are made of -/

variable {scopes : Scope.Names}

/-- More may be visible. -/
theorem IsPlain.mono {scopes' : Scope.Names} {code : Code} (plain : code.IsPlain scopes)
    (below : scopes.Below scopes') : code.IsPlain scopes' :=
  Scope.Forms.mono plain below

/-- Plain code stays plain in a further scope. -/
theorem IsPlain.enter {code : Code} (plain : code.IsPlain scopes) (scope : List Name) :
    code.IsPlain (scope :: scopes) :=
  plain.mono (scopes.below_enter scope)

/-- A word is plain if it is none that opens a loop, and visible if it names a variable. -/
theorem isPlain_of_isIdentifier {code : Code} (nonempty : code.chars ≠ [])
    (word : ∀ c ∈ code.chars, Lexeme.isWordChar c = true) (noLoop : code.chars ≠ ['f', 'o', 'r'])
    (sees : Lexeme.isVariable code.chars = true → scopes.Sees code.chars) :
    code.IsPlain scopes := by
  have scanned := Lexeme.scan_word nonempty word
  -- all that is asked of a plain part is read off its one word
  refine ⟨Lexeme.after_of_forall word, ?_, fun _ => rfl, ?_, ?_, ?_⟩
  · rw [scanned]
    simpa [Scope.leads] using noLoop
  · rw [scanned]
    exact id
  · intro chars member ofNode
    rw [scanned, List.mem_singleton] at member
    obtain rfl := Lexeme.word.inj member
    exact sees ofNode
  · intro newline
    exact absurd (word '\n' newline) (by decide)

/-- The name of a function or a type is plain. -/
theorem isPlain_name {name : Name} (other : name.node? = none) : (name : Code).IsPlain scopes := by
  obtain ⟨rest, spelled⟩ := Name.exists_toList_text other
  have noVariable := Name.isVariable_text_eq_false other
  refine isPlain_of_isIdentifier ?_ ?_ ?_ ?_ <;> rw [chars_name]
  · rw [spelled]
    exact List.cons_ne_nil _ _
  · exact Name.isIdentifier_of_ne other
  · rw [spelled]
    exact fun same => absurd (List.cons.inj same).1 (by decide)
  · exact fun ofNode => absurd ofNode (by rw [noVariable]; decide)

/-- A variable of an open scope is plain. -/
theorem isPlain_variable {name : Name} (known : scopes.Has name) :
    (name : Code).IsPlain scopes := by
  obtain ⟨word, scope, isOpen, member⟩ := known
  cases name with
  | ofNode owner node part =>
    have spelled := Name.isVariable_text_ofNode owner node part
    refine isPlain_of_isIdentifier ?_ ?_ ?_
      fun _ => ⟨scope, isOpen, _, member, (chars_name _).symm⟩ <;> rw [chars_name]
    · rw [Name.toList_text_ofNode]
      exact List.cons_ne_nil _ _
    · exact word
    · -- no word for a loop is spelled like a variable
      exact fun same => absurd (same ▸ spelled) (by decide)
  | _ => exact isPlain_name rfl

/-- A string literal is plain, whatever it contains. -/
theorem isPlain_literal (contents : String) : (literal contents).IsPlain scopes := by
  have scanned := Lexeme.scan_stringLiteral contents
  rw [← chars_literal] at scanned
  -- the only lexeme is the literal, which mentions nothing
  constructor
  case outside =>
    rw [chars_literal]
    exact Lexeme.after_stringLiteral contents
  case undeclared =>
    rw [scanned]
    rfl
  case ends => exact fun _ => rfl
  case braced =>
    rw [scanned]
    exact id
  case sees =>
    intro chars member
    rw [scanned, List.mem_singleton] at member
    cases member
  case sameLine =>
    rw [chars_literal]
    exact Lexeme.newline_notMem_stringLiteral contents

/-- The name of a member is a word that is no variable. -/
def IsMember (name : String) : Prop :=
  name.toList ≠ [] ∧ IsIdentifier name ∧ Lexeme.isVariable name.toList = false ∧
    name.toList ≠ ['f', 'o', 'r']

instance (name : String) : Decidable (IsMember name) := inferInstanceAs (Decidable (_ ∧ _ ∧ _ ∧ _))

/-- A letter that no variable starts with makes a name of a member in front of a number. -/
theorem isMember_append_toString {letter : String} {c : Char} (spelled : letter.toList = [c])
    (word : Lexeme.isWordChar c = true)
    (other : ['s', 'i', 'f', 'p', 'j', 'a'].contains c = false) (k : Nat) :
    IsMember (letter ++ toString k) := by
  have chars : (letter ++ toString k).toList = c :: (toString k).toList := by
    rw [String.toList_append, spelled, List.singleton_append]
  -- no variable and no keyword starts with the letter
  refine ⟨?_, IsIdentifier.append ?_ (isIdentifier_toString k), ?_, ?_⟩
  · rw [chars]
    exact List.cons_ne_nil _ _
  · rw [IsIdentifier, spelled]
    simpa using word
  · rw [chars, Lexeme.isVariable, other]
    rfl
  · rw [chars]
    rintro same
    obtain rfl := (List.cons.inj same).1
    exact absurd other (by decide)

/-- A member's name is plain: the reader takes it for no variable. -/
theorem isPlain_memberName {name : String} (isMember : IsMember name) :
    (name : Code).IsPlain scopes := by
  obtain ⟨nonempty, word, noVariable, noLoop⟩ := isMember
  refine isPlain_of_isIdentifier ?_ ?_ ?_ ?_ <;> rw [chars_text]
  · exact nonempty
  · exact word
  · exact noLoop
  · exact fun ofNode => absurd ofNode (by rw [noVariable]; decide)

/-- A member of a plain record is plain. -/
theorem IsPlain.member {record : Code} (plain : record.IsPlain scopes) {name : String}
    (isMember : IsMember name) : (record.member name).IsPlain scopes :=
  (Fits.hole plain |>.text _ |>.code (isPlain_memberName isMember)).isPlain

/-- An element of a plain array at a plain index is plain. -/
theorem IsPlain.element {array index : Code} (plain : array.IsPlain scopes)
    (indexPlain : index.IsPlain scopes) : (array.element index).IsPlain scopes :=
  (Fits.hole plain |>.text _ |>.code indexPlain |>.text _).isPlain

/-- Plain parts with a separator between them. -/
theorem isPlain_separated {separator : String}
    (passed : (Part.shape? [.hole, .fixed separator, .hole]).any (!·.braced) = true)
    {codes : List Code} (plain : ∀ code ∈ codes, code.IsPlain scopes) :
    (separated separator codes).IsPlain scopes ∨ separated separator codes = .empty := by
  induction codes with
  | nil => exact .inr rfl
  | cons first rest ih =>
    left
    have firstPlain := plain first List.mem_cons_self
    cases rest with
    | nil => exact firstPlain
    | cons second rest =>
      exact (Fits.hole firstPlain |>.text separator |>.optional
        (ih fun code member => plain code (List.mem_cons_of_mem _ member))).isPlain passed

/-- A call of a function that belongs to no node is plain if its arguments are. -/
theorem isPlain_call {function : Name} (other : function.node? = none) {arguments : List Code}
    (plain : ∀ argument ∈ arguments, argument.IsPlain scopes) :
    (call function arguments).IsPlain scopes :=
  (Fits.hole (isPlain_name other) |>.text _
    |>.optional (isPlain_separated (by decide +kernel) plain) |>.text _).isPlain

/-- A helper's call is plain if its arguments are. -/
theorem isPlain_help (helper : Helper) {arguments : List Code}
    (plain : ∀ argument ∈ arguments, argument.IsPlain scopes) :
    (help helper arguments).IsPlain scopes :=
  isPlain_call rfl plain

end Code

end PlanCompiler
