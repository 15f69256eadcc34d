import PlanCompiler.Proofs.Code.Lexeme

/-!
# Variables of nodes

The name of a variable of a node is one word, and it can be told from all other words: it starts
with a letter for its owner, then comes the number of the node, and then nothing or an underscore.
The name determines its owner, its node and its part.

## Main definitions

* `Lexeme.isVariable`: the words that are spelled like variables of nodes;
* `IsIdentifier`: a text is a part of words.

## Main results

* `Name.isVariable_text`: the names of variables are such words, all others are none;
* `Name.eq_of_text_eq`: variables with one spelling are the same;
* `Name.isIdentifier_ofNode`, `Name.isIdentifier_of_ne`: names are words.
-/

namespace PlanCompiler

/-- A word is spelled like a variable of a node: a letter, a number, and nothing else or an
underscore and what follows it. -/
def Lexeme.isVariable : List Char → Bool
  | [] => false
  | letter :: rest =>
    ['s', 'i', 'f', 'p', 'j', 'a'].contains letter && rest.head?.any Char.isDigit &&
      (rest.dropWhile Char.isDigit).head?.all (· == '_')

/-- All characters of a text are characters of words. -/
def IsIdentifier (text : String) : Prop := ∀ c ∈ text.toList, Lexeme.isWordChar c = true

-- an instance for all characters would be found as well
instance (text : String) : Decidable (IsIdentifier text) :=
  List.decidableBAll (fun c => Lexeme.isWordChar c = true) text.toList

/-- Identifiers in a row make an identifier. -/
theorem IsIdentifier.append {a b : String} (first : IsIdentifier a) (second : IsIdentifier b) :
    IsIdentifier (a ++ b) := by
  intro c member
  rw [String.toList_append] at member
  rcases List.mem_append.1 member with member | member
  · exact first c member
  · exact second c member

/-- A digit is a character of words. -/
theorem Lexeme.isWordChar_of_isDigit {c : Char} (digit : c.isDigit = true) :
    isWordChar c = true := by
  rw [isWordChar, Char.isAlphanum, digit, Bool.or_true, Bool.true_or]

/-- The digits of a number count as part of an identifier. -/
theorem isIdentifier_toString (n : Nat) : IsIdentifier (toString n) := by
  intro c member
  rw [Numeral.toList_toString] at member
  exact Lexeme.isWordChar_of_isDigit (Numeral.isDigit_of_mem_toDigits member)

namespace Owner

/-- Owners have different letters. -/
theorem letter_injective {a b : Owner} (same : a.letter = b.letter) : a = b := by
  cases a <;> cases b <;> first | rfl | exact absurd same (by decide)

/-- The first letter of the names of an owner. -/
def initial : Owner → Char
  | .table => 's'
  | .row => 'i'
  | .filter => 'f'
  | .projection => 'p'
  | .join => 'j'
  | .aggregation => 'a'

/-- An owner's letter is one character. -/
theorem toList_letter (owner : Owner) : owner.letter.toList = [owner.initial] := by
  cases owner <;> rfl

end Owner

namespace Name

/-- The node that a variable belongs to. -/
def node? : Name → Option Nat
  | .ofNode _ node _ => some node
  | _ => none

/-- What follows the number in the name of a variable. -/
def ending : Option String → List Char
  | none => []
  | some part => '_' :: part.toList

/-- A node's name is its owner's letter, its position and its part. -/
theorem toList_text_ofNode (owner : Owner) (node : Nat) (part : Option String) :
    (ofNode owner node part).text.toList =
      owner.initial :: (Nat.toDigits 10 node ++ ending part) := by
  cases part <;>
    simp [text, ending, Owner.toList_letter]

/-- The number of a node ends where the rest of the name starts. -/
theorem dropWhile_isDigit (node : Nat) (part : Option String) :
    (Nat.toDigits 10 node ++ ending part).dropWhile Char.isDigit = ending part := by
  rw [List.dropWhile_append_of_pos fun c => Numeral.isDigit_of_mem_toDigits]
  cases part <;> rfl

/-- The digits behind the letter are those of the position. -/
theorem takeWhile_isDigit (node : Nat) (part : Option String) :
    (Nat.toDigits 10 node ++ ending part).takeWhile Char.isDigit = Nat.toDigits 10 node := by
  rw [List.takeWhile_append_of_pos fun c => Numeral.isDigit_of_mem_toDigits]
  cases part <;> simp [ending]

/-- Variables with one spelling are the same. -/
theorem eq_of_text_eq {owner owner' : Owner} {node node' : Nat} {part part' : Option String}
    (same : (ofNode owner node part).text = (ofNode owner' node' part').text) :
    ofNode owner node part = ofNode owner' node' part' := by
  have chars := congrArg String.toList same
  rw [toList_text_ofNode, toList_text_ofNode] at chars
  obtain ⟨letters, rest⟩ := List.cons.inj chars
  have owners : owner = owner' := by
    refine Owner.letter_injective (String.toList_inj.1 ?_)
    rw [Owner.toList_letter, Owner.toList_letter, letters]
  -- the number is the run of digits behind the letter
  have digits := congrArg (List.takeWhile Char.isDigit) rest
  have endings := congrArg (List.dropWhile Char.isDigit) rest
  rw [takeWhile_isDigit, takeWhile_isDigit] at digits
  rw [dropWhile_isDigit, dropWhile_isDigit] at endings
  have nodes : node = node' := by
    rw [← @Nat.ofDigitChars_ten_toDigits node, digits, Nat.ofDigitChars_ten_toDigits]
  have parts : part = part' := by
    cases part <;> cases part' <;> simp_all [ending, String.toList_inj]
  rw [owners, nodes, parts]

/-- The name of a node is spelled like a variable. -/
theorem isVariable_text_ofNode (owner : Owner) (node : Nat) (part : Option String) :
    Lexeme.isVariable (ofNode owner node part).text.toList = true := by
  rw [toList_text_ofNode, Lexeme.isVariable, dropWhile_isDigit]
  have letter : ['s', 'i', 'f', 'p', 'j', 'a'].contains owner.initial = true := by
    cases owner <;> rfl
  have digit : (Nat.toDigits 10 node ++ ending part).head?.any Char.isDigit = true := by
    cases digits : Nat.toDigits 10 node with
    | nil => exact absurd digits Nat.toDigits_ne_nil
    | cons c rest => exact Numeral.isDigit_of_mem_toDigits (n := node) (digits ▸ List.mem_cons_self)
  rw [letter, digit]
  cases part <;> rfl

/-- A variable of a node is spelled like one. -/
theorem isVariable_text {name : Name} {node : Nat} (ofNode : name.node? = some node) :
    Lexeme.isVariable name.text.toList = true := by
  cases name <;> cases ofNode
  exact isVariable_text_ofNode _ node _

/-- All names other than those of variables start alike. -/
theorem exists_toList_text {name : Name} (other : name.node? = none) :
    ∃ rest, name.text.toList = 'k' :: rest := by
  cases name with
  | ofNode => cases other
  | resultRow | printRow => exact ⟨_, rfl⟩
  | helper function => cases function <;> exact ⟨_, rfl⟩
  | tableType | loader | groupsType | groupsHash | groupsGrow | groupsFind =>
    simp only [text, String.toList_append]
    exact ⟨_, rfl⟩

/-- No other name is spelled like a variable. -/
theorem isVariable_text_eq_false {name : Name} (other : name.node? = none) :
    Lexeme.isVariable name.text.toList = false := by
  obtain ⟨rest, spelled⟩ := exists_toList_text other
  rw [spelled]
  rfl

/-- A node's name with an identifier as its part is an identifier. -/
theorem isIdentifier_ofNode (owner : Owner) (node : Nat) {part : String}
    (word : IsIdentifier part) : IsIdentifier (ofNode owner node (some part)).text := by
  have letter : IsIdentifier owner.letter := by cases owner <;> decide
  exact ((letter.append (isIdentifier_toString node)).append (by decide)).append word

/-- A node's name without a part is an identifier. -/
theorem isIdentifier_ofNode_none (owner : Owner) (node : Nat) :
    IsIdentifier (ofNode owner node none).text := by
  have letter : IsIdentifier owner.letter := by cases owner <;> decide
  exact letter.append (isIdentifier_toString node)

/-- A name that belongs to no node is an identifier. -/
theorem isIdentifier_of_ne {name : Name} (other : name.node? = none) :
    IsIdentifier name.text := by
  cases name with
  | ofNode => cases other
  | resultRow | printRow => decide
  | helper function => cases function <;> decide
  | tableType node | loader node | groupsType node =>
    exact IsIdentifier.append (by decide) (isIdentifier_toString node)
  | groupsHash node | groupsGrow node | groupsFind node =>
    exact (IsIdentifier.append (by decide) (isIdentifier_toString node)).append (by decide)

/-- No name is empty. -/
theorem toList_text_ne_nil (name : Name) : name.text.toList ≠ [] := by
  cases other : name.node? with
  | none =>
    obtain ⟨rest, spelled⟩ := exists_toList_text other
    rw [spelled]
    exact List.cons_ne_nil _ _
  | some node =>
    intro empty
    have spelled := isVariable_text other
    rw [empty] at spelled
    cases spelled

/-- Variables of nodes are known by their spelling. -/
theorem eq_of_toList_text_eq {name name' : Name} {node : Nat} (ofNode : name.node? = some node)
    (same : name.text.toList = name'.text.toList) : name = name' := by
  obtain ⟨owner, part, rfl⟩ : ∃ owner part, name = .ofNode owner node part := by
    cases name <;> cases ofNode
    exact ⟨_, _, rfl⟩
  have spelled := isVariable_text_ofNode owner node part
  cases other : name'.node? with
  | none =>
    rw [same, isVariable_text_eq_false other] at spelled
    cases spelled
  | some node' =>
    cases name' <;> cases other
    exact eq_of_text_eq (String.toList_inj.1 same)

end Name

end PlanCompiler
