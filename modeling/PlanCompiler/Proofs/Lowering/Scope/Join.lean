import PlanCompiler.Lowering.Join
import PlanCompiler.Proofs.Code.Reading
import PlanCompiler.Proofs.Lowering.Plain
import PlanCompiler.Proofs.Lowering.Sections.Operators

/-!
# Scopes of joins

Storing a row, building the index and looking for partners only use the variables of the join at
the top of the program, what they declare themselves, and the values of the row at hand.

## Main definitions

* `Join.IsVisible`: the variables of a join are declared.

## Main results

* `Join.reads_store`, `Join.reads_buildIndex`: the statements over the left input;
* `Join.leads_probe`, `Join.isPlain_found`: the code around the rows of the join.
-/

namespace PlanCompiler

open Code Scope

variable {scopes : Names}

/-- A variable can be declared with the type of a value. -/
theorem DataType.isType_representation (type : DataType) :
    isType (type.representation ++ " " : Code).chars = true := by
  cases type <;> rfl

/-- A variable that keeps its value can be declared with the type of the value. -/
theorem DataType.isType_representation_const (type : DataType) :
    isType (type.representation ++ " const " : Code).chars = true := by
  cases type <;> rfl

/-- Doubles a capacity when it is used up and makes room for more elements of some arrays. -/
theorem reads_grow {ι : Type} {count cap : Name} (countKnown : scopes.Has count)
    (capKnown : scopes.Has cap) {start : String} {arrays : List ι} {array : ι → Name}
    (arraysKnown : ∀ a ∈ arrays, scopes.Has (array a))
    (passed : (Part.shape?
        [.fixed start, .hole, .fixed " ? ", .hole, .fixed " = ", .hole]).any (!·.braced) = true :=
      by decide +kernel) :
    Reads
      [.block (.control ("if (" ++ count ++ " == " ++ cap ++ ")"))
        (.line (cap ++ " = " ++ cap ++ " ? " ++ cap ++ start) ::
          arrays.map fun a => .line ("KILN_RESIZE(" ++ array a ++ ", " ++ cap ++ ");"))]
      scopes scopes := by
  have countPlain := isPlain_variable countKnown
  have capPlain := isPlain_variable capKnown
  have capInside := capPlain.enter []
  -- the capacity grows first, and the arrays follow it
  refine .block (.control ?_) (.cons (.line ?_) (.all ?_))
  · exact (Fits.start _ |>.code countPlain |>.text _ |>.code capPlain
      |>.text _).isPlain
  · exact (Fits.hole capInside |>.text _ |>.code capInside |>.text _
      |>.code capInside |>.text _).isPlain passed
  · intro statement member
    obtain ⟨a, inArrays, rfl⟩ := List.mem_map.1 member
    have arrayPlain := isPlain_variable ((arraysKnown a inArrays).enter [])
    exact .line (Fits.start _ |>.code arrayPlain |>.text _ |>.code capInside
      |>.text _).isPlain

namespace Join

/-- The variables of a join at the top of the program are declared. -/
structure IsVisible (join : Join) (scopes : Names) : Prop where
  rows : scopes.Has (join.named "rows")
  cap : scopes.Has (join.named "cap")
  mask : scopes.Has (join.named "mask")
  heads : scopes.Has (join.named "heads")
  next : scopes.Has (join.named "next")
  column : ∀ k < join.stored.length, scopes.Has (join.column k)

variable {join : Join}

/-- What a join declares stays visible below. -/
theorem IsVisible.mono {scopes' : Names} (visible : join.IsVisible scopes)
    (below : scopes.Below scopes') : join.IsVisible scopes' :=
  { rows := visible.rows.mono below
    cap := visible.cap.mono below
    mask := visible.mask.mono below
    heads := visible.heads.mono below
    next := visible.next.mono below
    column := fun k stored => (visible.column k stored).mono below }

/-- A join is visible where all its variables are known. -/
theorem isVisible_of_names (known : ∀ name ∈ join.sections.names, scopes.Has name) :
    join.IsVisible scopes := by
  rw [names_sections] at known
  refine ⟨?_, ?_, ?_, ?_, ?_, fun k stored => known _ ?_⟩
  iterate 5 exact known _ (by simp)
  refine List.mem_append_left _ (List.mem_append_right _ ?_)
  exact Name.mem_numbered_iff.2 ⟨k, stored, rfl⟩

/-- Storing a plain row is read where the join is visible. -/
theorem reads_store (visible : join.IsVisible scopes) {row : List Value}
    (width : row.length = join.stored.length) (plain : ∀ value ∈ row, value.IsPlain scopes) :
    Reads (join.store row) scopes scopes := by
  have rowsPlain := isPlain_variable visible.rows
  have columns : ∀ entry ∈ row.zipIdx, scopes.Has (join.column entry.2) := fun (value, k) member =>
    visible.column k (width ▸ lt_of_mem_zipIdx member)
  refine .cons (reads_grow visible.rows visible.cap columns) (.append (.all ?_) (.line ?_))
  · intro statement member
    obtain ⟨⟨value, k⟩, stored, rfl⟩ := List.mem_map.1 member
    have valuePlain := plain value (List.fst_mem_of_mem_zipIdx stored)
    have place := (isPlain_variable (columns _ stored)).element rowsPlain
    exact .line (Fits.hole place |>.text _ |>.code valuePlain |>.text _).isPlain
  · exact (Fits.hole rowsPlain |>.text _).isPlain

/-- A variable of a join is one word if its part is. -/
theorem isIdentifier_named (join : Join) {part : String} (word : IsIdentifier part) :
    IsIdentifier (join.named part).text :=
  Name.isIdentifier_ofNode _ _ word

/-- The index is built in a loop over the stored rows. -/
theorem reads_buildIndex (visible : join.IsVisible scopes)
    (stored : join.key < join.stored.length) : Reads join.buildIndex scopes scopes := by
  have rowsPlain := isPlain_variable visible.rows
  have maskPlain := isPlain_variable visible.mask
  have headsPlain := isPlain_variable visible.heads
  have nextPlain := isPlain_variable visible.next
  have size := isPlain_help .tableSize (List.forall_mem_singleton.2 rowsPlain)
  refine .cons (.line ?_) (.cons (.line ?_) (.cons (.control ?_ ?_) (.cons (.line ?_) ?_)))
  · exact (Fits.hole maskPlain |>.text _ |>.code size |>.text _).isPlain
  · exact (Fits.hole headsPlain |>.text _ |>.code maskPlain |>.text _).isPlain
  · exact (Fits.start _ |>.code headsPlain |>.text _).isPlain
  · exact (Fits.start _).isPlain
  · exact (Fits.start _ |>.code nextPlain |>.text _ |>.code rowsPlain
      |>.text _).isPlain
  -- the loop declares its index, and then the bucket of a row
  have rowWord : IsIdentifier (join.named "b").text := join.isIdentifier_named (by decide)
  have bucketWord : IsIdentifier (join.named "h").text := join.isIdentifier_named (by decide)
  have column := isPlain_variable ((visible.column _ stored).enter [join.named "b"])
  have row := isPlain_variable (Names.has_declared rowWord [] scopes)
  have hash := @Value.isPlain_hash _ ⟨_, join.keyType⟩ (column.element row)
  refine .block (.upTo rowWord rowsPlain) (.cons (.declare rfl bucketWord
    (Fits.start _ |>.code hash |>.text _ |>.code (maskPlain.enter _) |>.text _)
    (by simp [named])) (.cons (.line ?_) (.line ?_)))
  all_goals
    have row := row.mono (Names.below_declare (join.named "h") _ _)
    have bucket := isPlain_variable (Names.has_declared bucketWord [join.named "b"] scopes)
    have head := (headsPlain.enter [join.named "h", join.named "b"]).element bucket
  · have next := (nextPlain.enter [join.named "h", join.named "b"]).element row
    exact (Fits.hole next |>.text _ |>.code head |>.text _).isPlain
  · exact (Fits.hole head |>.text _ |>.code row |>.text _).isPlain

variable {here : List Name} {outer : Names}

/-- The scopes around the rows of a join. -/
def inside (join : Join) (scopes : Names) : Names :=
  [join.named "m", join.named "e"] :: [join.named "k"] :: scopes

/-- The scope of a probe is below the scopes around it. -/
theorem below_inside (join : Join) (scopes : Names) : scopes.Below (join.inside scopes) :=
  (scopes.below_enter _).trans (Names.below_enter _ _)

/-- The position that a probe finds is known in its scope. -/
theorem has_found (join : Join) (scopes : Names) :
    (join.inside scopes).Has (join.named "m") := by
  refine Names.has_declared ?_ [join.named "e"] _
  exact join.isIdentifier_named (by decide)

/-- The key that is looked for is bound first, and then the link and the row in turn. -/
theorem leads_probe (visible : join.IsVisible (here :: outer))
    (stored : join.key < join.stored.length) (checked : Bool) {key : Value}
    (keyPlain : key.IsPlain (here :: outer)) :
    Leads (here :: outer) (join.inside (here :: outer)) (join.probe checked key) := by
  have wantedWord : IsIdentifier (join.named "k").text := join.isIdentifier_named (by decide)
  have linkWord : IsIdentifier (join.named "e").text := join.isIdentifier_named (by decide)
  have foundWord : IsIdentifier (join.named "m").text := join.isIdentifier_named (by decide)
  have wanted := isPlain_variable (Names.has_declared wantedWord [] (here :: outer))
  have hash := (@Value.isPlain_hash _ ⟨_, key.type⟩ wanted).enter [join.named "e"]
  have inLoop := visible.mono ((Names.below_enter _ [join.named "k"]).trans
    (Names.below_enter _ [join.named "e"]))
  have link := isPlain_variable (Names.has_declared linkWord [] ([join.named "k"] :: here :: outer))
  have previous : (join.named "e" ++ " - 1" : Code).IsPlain _ :=
    (Fits.hole link |>.text _).isPlain
  have bucket : ("(size_t)" ++ Value.hash ⟨join.named "k", key.type⟩ ++ " & " ++
      join.named "mask" : Code).IsPlain _ :=
    (Fits.start _ |>.code hash |>.text _ |>.code (isPlain_variable inLoop.mask)).isPlain
  have next := (isPlain_variable inLoop.next).element previous
  refine .append (.append (.cons (.enter .bare) (.cons (.run (.declare rfl wantedWord
    (Fits.start _ |>.code (keyPlain.enter []) |>.text _) List.not_mem_nil ?_)) (.cons (.enter
    (.loop linkWord nofun ((isPlain_variable inLoop.heads).element bucket) ?_ ?_))
    (.cons (.run (.declare rfl foundWord (Fits.start _ |>.code link |>.text _) ?_)) .nil)))) ?_)
    (.cons (.run (.control ?_ ?_)) .nil)
  · exact key.type.isType_representation_const
  · exact (Fits.hole link |>.text _).isPlain
  · exact (Fits.hole link |>.text _ |>.code next).isPlain
  · simp [named]
  -- what is checked about the row that was found
  all_goals have visible := visible.mono (join.below_inside _)
  all_goals have found := isPlain_variable (join.has_found (here :: outer))
  · split
    · have rows := isPlain_variable visible.rows
      exact .cons (.run (.line (Fits.start _ |>.code found |>.text _ |>.code rows
        |>.text _).isPlain)) .nil
    · exact .nil
  · have stored := (isPlain_variable (visible.column _ stored)).element found
    have same := Value.isPlain_sameKey key.type stored (wanted.enter _)
    exact (Fits.start _ |>.code same |>.text _).isPlain
  · exact (Fits.start _).isPlain

/-- The columns that a probe finds are plain in its scope. -/
theorem isPlain_found (visible : join.IsVisible scopes) :
    ∀ value ∈ join.found, value.IsPlain (join.inside scopes) := by
  intro value member
  obtain ⟨⟨type, k⟩, stored, rfl⟩ := List.mem_map.1 member
  have column := visible.column k (lt_of_mem_zipIdx stored)
  exact (isPlain_variable (column.mono (join.below_inside scopes))).element
    (isPlain_variable (join.has_found scopes))

end Join

end PlanCompiler
