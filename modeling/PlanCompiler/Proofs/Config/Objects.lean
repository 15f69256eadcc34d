import Mathlib.Data.List.Perm.Basic
import PlanCompiler.Proofs.Config.Members

/-!
# Configurations as objects

An object is a configuration exactly if each of its members is one of a setting and no setting is
named twice. Settings that are not named keep their standard values. So the members of an object may
be put in any order, with any blanks between them. The batch size is in range, named or not, and a
builder that is given the same number arrives at the same configuration.

## Main definitions

* `Config.IsDescribedBy`: what is known of a configuration and the members of its object.

## Main results

* `Config.ofText_eq_ok_iff_of_members?`: the objects that are configurations;
* `Config.exists_members?_of_ofText`: they have members;
* `Config.exists_isDescribedBy_of_ofText`: what is known of them.
-/

namespace PlanCompiler.Config

open Json

variable {temporary text : String} {config : Config} {members others : List (List Char)}
  {settings : List Setting}

/-! ## Objects -/

/-- The rest of an object is read after its opening brace, and only blanks may follow it. -/
theorem ofText_eq_ok_iff_of_brace {body : List Char}
    (brace : skipBlanks text.toList = '{' :: body) :
    ofText temporary text = .ok config ↔
      ∃ rest, readObject temporary body = .ok (config, rest) ∧ AllBlank rest := by
  unfold ofText
  rw [brace]
  show (readObject temporary body >>= _) = _ ↔ _
  rw [bind_eq_ok_iff, Prod.exists]
  constructor
  -- behind the object only blanks are accepted
  · rintro ⟨read, rest, found, result⟩
    dsimp only at result
    split at result
    · rename_i blank
      obtain rfl := Except.ok.inj result
      exact ⟨rest, found, skipBlanks_eq_nil_iff.1 blank⟩
    · cases result
  · rintro ⟨rest, found, blank⟩
    exact ⟨config, rest, found, if_pos (skipBlanks_eq_nil_iff.2 blank)⟩

/-- An object is empty, or it has members. -/
theorem readObject_eq_ok_iff {body rest : List Char} :
    readObject temporary body = .ok (config, rest) ↔
      skipBlanks body = '}' :: rest ∧ config = standard temporary ∨
        readBody Field.all (standard temporary) body = .ok (config, rest) := by
  unfold readObject
  -- the reader has to see a brace or a quote behind the blanks
  split
  · rename_i none
    simp [readBody, none]
  · rename_i brace
    simp only [readBody, brace, Except.ok.injEq, Prod.mk.injEq, List.cons.injEq, true_and]
    constructor
    · rintro ⟨rfl, rfl⟩
      exact .inl ⟨rfl, rfl⟩
    · rintro (⟨rfl, rfl⟩ | found)
      · exact ⟨rfl, rfl⟩
      · cases found
  · rename_i quote
    simp [readBody, quote]
  · rename_i _ notBrace notQuote
    refine iff_of_false (by simp) ?_
    rintro (⟨brace, -⟩ | found)
    · exact notBrace _ brace
    · unfold readBody at found
      split at found
      · rename_i quote
        exact notQuote _ quote
      · cases found
      · cases found

/-- An object is read as the settings that its parts give. -/
theorem readObject_eq_ok_iff_exists {interior after : List Char} (blank : AllBlank after) :
    (∃ rest, readObject temporary (interior ++ '}' :: after) = .ok (config, rest) ∧ AllBlank rest) ↔
      ∃ settings, List.Forall₂ Spells (parts interior) settings ∧ Distinct settings ∧
        config = (standard temporary).giveAll settings := by
  have starts : StartsFilled ('}' :: after) := ⟨'}', after, rfl, by decide⟩
  constructor
  · rintro ⟨rest, found, blank'⟩
    obtain ⟨brace, rfl⟩ | found := readObject_eq_ok_iff.1 found
    · obtain ⟨gap, empty, whole, -⟩ := exists_blanks_append brace
      obtain rfl := eq_of_append_brace_eq blank blank' whole
      refine ⟨[], ?_, List.nodup_nil, rfl⟩
      rw [parts, if_pos (trim_eq_nil_iff.2 empty)]
      exact .nil
    · -- there is a member, so there are not only blanks between the braces
      have nonblank : trim interior ≠ [] := by
        rw [Ne, trim_eq_nil_iff]
        intro empty
        rw [readBody, skipBlanks_append empty, starts.skipBlanks_eq] at found
        cases found
      obtain ⟨pieces, settings, nonempty, whole, all, distinct, -, rfl⟩ :=
        (readBody_eq_ok_iff_exists Field.nodup_all).1 found
      obtain rfl := eq_of_append_brace_eq blank blank' whole
      have uncut : ∀ piece ∈ pieces, Uncut .outside .outside piece := by
        intro piece member
        obtain ⟨_, -, spelled⟩ := exists_of_mem_of_forall₂ all member
        exact spelled.uncut
      refine ⟨settings, ?_, distinct, rfl⟩
      rwa [parts, if_neg nonblank, pieces_intercalate nonempty uncut]
  · rintro ⟨settings, all, distinct, rfl⟩
    refine ⟨after, readObject_eq_ok_iff.2 ?_, blank⟩
    unfold parts at all
    split at all
    · rename_i empty
      cases all
      refine .inl ⟨?_, rfl⟩
      rw [skipBlanks_append (trim_eq_nil_iff.1 empty), starts.skipBlanks_eq]
    · refine .inr ((readBody_eq_ok_iff_exists Field.nodup_all).2
        ⟨_, settings, pieces_ne_nil _ _, ?_, all, distinct, fun _ _ => Field.mem_all _, rfl⟩)
      rw [intercalate_pieces]

/-- An object is a configuration exactly if its members are settings, and these are different. -/
theorem ofText_eq_ok_iff_of_members? (found : members? text.toList = some members) :
    ofText temporary text = .ok config ↔ ∃ settings, List.Forall₂ Spells members settings ∧
      Distinct settings ∧ config = (standard temporary).giveAll settings := by
  obtain ⟨interior, inside, rfl⟩ := Option.map_eq_some_iff.1 found
  obtain ⟨before, after, blank, blank', whole⟩ := interior?_eq_some_iff.1 inside
  have brace : skipBlanks text.toList = '{' :: (interior ++ '}' :: after) := by
    rw [whole, skipBlanks_append blank]
    exact StartsFilled.skipBlanks_eq ⟨'{', _, rfl, by decide⟩
  rw [ofText_eq_ok_iff_of_brace brace, readObject_eq_ok_iff_exists blank']
  simp only [List.forall₂_map_left_iff, spells_trim_iff]

/-- A text that starts as an object and is a configuration has members. -/
theorem exists_members?_of_ofText {body : List Char} (accepted : ofText temporary text = .ok config)
    (brace : skipBlanks text.toList = '{' :: body) :
    ∃ members, members? text.toList = some members := by
  obtain ⟨rest, found, blank⟩ := (ofText_eq_ok_iff_of_brace brace).1 accepted
  obtain ⟨before, blank', whole⟩ := exists_blanks text.toList
  obtain ⟨interior, closed⟩ : ∃ interior, body = interior ++ '}' :: rest := by
    obtain ⟨closing, -⟩ | found := readObject_eq_ok_iff.1 found
    · obtain ⟨gap, -, closed, -⟩ := exists_blanks_append closing
      exact ⟨gap, closed⟩
    · obtain ⟨pieces, _, _, closed, -⟩ := (readBody_eq_ok_iff_exists Field.nodup_all).1 found
      exact ⟨_, closed⟩
  rw [brace, closed] at whole
  have inside := interior?_eq_some_iff.2 ⟨before, rest, blank', blank, whole⟩
  exact ⟨_, congrArg (Option.map _) inside⟩

/-! ## What a member says -/

/-- A member that spells a setting has its name and a value for it. -/
theorem Spells.nameAndValue? {member : List Char} {setting : Setting} (h : Spells member setting) :
    ∃ afterColon rest, nameAndValue? member = some (setting.1.name, trim afterColon) ∧
      readValue setting.1 afterColon = .ok (setting.2, rest) ∧ AllBlank rest := by
  obtain ⟨rest, read, blank⟩ := h
  obtain ⟨contents, afterName, afterColon, start, named, colon, valued⟩ :=
    readMember_eq_ok_iff.1 read
  refine ⟨afterColon, rest, ?_, valued, blank⟩
  unfold readContents at named
  split at named
  · cases named
  · rename_i read
    obtain ⟨same, rfl⟩ := Prod.mk.inj (Except.ok.inj named)
    simp only [Json.nameAndValue?, start, read, colon, same]

/-- A member that spells a setting has its name. -/
theorem Spells.name? {member : List Char} {setting : Setting} (h : Spells member setting) :
    name? member = some setting.1.name := by
  obtain ⟨_, _, found, -⟩ := h.nameAndValue?
  rw [Json.name?, found]
  rfl

/-- A batch size is written in decimal and is in range. -/
theorem Spells.value?_vectorSize {member : List Char} {n : Nat}
    (h : Spells member ⟨.vectorSize, n⟩) :
    value? member = some (Nat.toDigits 10 n) ∧ 1 ≤ n ∧ n ≤ VectorSize.greatest := by
  obtain ⟨afterColon, rest, found, valued, blank⟩ := h.nameAndValue?
  obtain ⟨inRange, start, -⟩ := readSize_eq_ok_iff.1 valued
  rw [value?, found, trim, start, rdropWhile_append blank (endsFilled_toDigits n)]
  exact ⟨rfl, inRange⟩

/-! ## Described configurations -/

/-- What is known of a configuration that is described by an object with some members. -/
structure IsDescribedBy (temporary : String) (config : Config) (members : List (List Char)) :
    Prop where
  /-- With the members in any other order there is an object, and every such object, whatever
  blanks it has, describes the same configuration. -/
  reordered : ∀ others : List (List Char), others.Perm members →
    members? (object others) = some others ∧
      ∀ text : String, members? text.toList = some others → ofText temporary text = .ok config
  /-- Every member has the name of a setting. -/
  known : ∀ member ∈ members, ∃ field : Field, name? member = some field.name
  /-- No name is repeated. -/
  different : (members.map name?).Nodup
  /-- The settings that are not named have their standard values. -/
  standard : ∀ field : Field, some field.name ∉ members.map name? →
    config.get field = (standard temporary).get field
  /-- The batch size is in range, so that programs are generated with it as it is. -/
  inRange : 1 ≤ config.vectorSize ∧ config.vectorSize ≤ 1048576 ∧
    config.batchSize = config.vectorSize
  /-- If there is a batch size among the members, it is a number in decimal. Builders that are
  given that number have the same batch size, and if the other settings are the same as well,
  they build the configuration. -/
  built : ∀ member ∈ members, name? member = some Field.vectorSize.name →
    (∃ n, value? member = some (Nat.toDigits 10 n)) ∧
      ∀ (n : Nat) (builder : Builder), value? member = some (Nat.toDigits 10 n) →
        ((builder.withVectorSize n).build temporary).vectorSize = config.vectorSize ∧
          ((∀ field ≠ .vectorSize, (builder.build temporary).get field = config.get field) →
            (builder.withVectorSize n).build temporary = config)

section

variable (all : List.Forall₂ Spells members settings) (distinct : Distinct settings)

include all

/-- The names of the members are those of the settings. -/
theorem map_name?_eq : members.map name? = (settings.map (·.1)).map (some ·.name) := by
  induction all with
  | nil => rfl
  | cons spelled _ ih => rw [List.map_cons, spelled.name?, ih]; rfl

/-- A name is among those of the members exactly if its setting is among those that are read. -/
theorem mem_map_name?_iff {field : Field} :
    some field.name ∈ members.map name? ↔ field ∈ settings.map (·.1) := by
  rw [map_name?_eq all, List.mem_map]
  constructor
  · rintro ⟨other, member, same⟩
    rwa [← Field.name_injective (Option.some.inj same)]
  · intro member
    exact ⟨field, member, rfl⟩

include distinct

/-- No name occurs twice among the members. -/
theorem nodup_map_name? : (members.map name?).Nodup := by
  rw [map_name?_eq all]
  exact distinct.map fun _ _ same => Field.name_injective (Option.some.inj same)

/-- The batch size is that of the member that names it. -/
theorem vectorSize_of_name? (temporary : String) {member : List Char} (found : member ∈ members)
    (named : name? member = some Field.vectorSize.name) :
    let size := (giveAll (standard temporary) settings).vectorSize
    value? member = some (Nat.toDigits 10 size) ∧ 1 ≤ size ∧ size ≤ VectorSize.greatest := by
  obtain ⟨⟨field, n⟩, given, spelled⟩ := exists_of_mem_of_forall₂ all found
  obtain rfl : field = .vectorSize :=
    Field.name_injective (Option.some.inj (spelled.name?.symm.trans named))
  have size : (giveAll (standard temporary) settings).vectorSize = n := get_giveAll given distinct
  rw [size]
  exact spelled.value?_vectorSize

/-- The batch size is in range, whether it is named or not. -/
theorem vectorSize_inRange (temporary : String) :
    1 ≤ (giveAll (standard temporary) settings).vectorSize ∧
    (giveAll (standard temporary) settings).vectorSize ≤ VectorSize.greatest := by
  by_cases named : some Field.vectorSize.name ∈ members.map name?
  · obtain ⟨member, found, named⟩ := List.mem_map.1 named
    exact (vectorSize_of_name? all distinct temporary found named).2
  · rw [mem_map_name?_iff all] at named
    have size : (giveAll (standard temporary) settings).vectorSize = VectorSize.standard :=
      get_giveAll_of_notMem named
    rw [size]
    decide

end

/-- Settings may be given in any order. -/
theorem exists_settings_of_perm (all : List.Forall₂ Spells members settings)
    (distinct : Distinct settings) (perm : others.Perm members) :
    ∃ settings', List.Forall₂ Spells others settings' ∧ Distinct settings' ∧
      (standard temporary).giveAll settings' = (standard temporary).giveAll settings := by
  obtain ⟨settings', all', perm'⟩ := List.perm_comp_forall₂ perm all
  have distinct' : Distinct settings' :=
    (perm'.map fun setting : Setting => setting.1).nodup_iff.2 distinct
  exact ⟨settings', all', distinct', giveAll_perm perm' distinct'⟩

/-- Members that were found in a text are found in the object that has them. -/
theorem members?_object_of_spells (trimmed : ∀ member ∈ members, ∃ piece, trim piece = member)
    (all : List.Forall₂ Spells members settings) : members? (object members) = some members := by
  have nonempty {piece : List Char} (found : trim piece ∈ members) : trim piece ≠ [] := by
    obtain ⟨_, -, spelled⟩ := exists_of_mem_of_forall₂ all found
    exact (spells_trim_iff.1 spelled).trim_ne_nil
  refine members?_object (fun member found => ?_) (fun member found => ?_) fun member found => ?_
  · obtain ⟨piece, rfl⟩ := trimmed member found
    exact startsFilled_trim (nonempty found)
  · obtain ⟨piece, rfl⟩ := trimmed member found
    exact endsFilled_trim (nonempty found)
  · obtain ⟨_, -, spelled⟩ := exists_of_mem_of_forall₂ all found
    exact spelled.uncut

/-- The object with the members in another order, and all texts of it, give the same settings. -/
theorem members?_and_ofText_of_perm {text : String} (found : members? text.toList = some members)
    (all : List.Forall₂ Spells members settings) (distinct : Distinct settings)
    (perm : others.Perm members) :
    members? (object others) = some others ∧ ∀ text : String,
      members? text.toList = some others →
        ofText temporary text = .ok ((standard temporary).giveAll settings) := by
  obtain ⟨interior, -, rfl⟩ := Option.map_eq_some_iff.1 found
  obtain ⟨settings', all', distinct', same⟩ := exists_settings_of_perm all distinct perm
  refine ⟨members?_object_of_spells (fun member isMember => ?_) all', fun text found => ?_⟩
  · obtain ⟨piece, -, trimmed⟩ := List.mem_map.1 (perm.mem_iff.1 isMember)
    exact ⟨piece, trimmed⟩
  · exact (ofText_eq_ok_iff_of_members? found).2 ⟨settings', all', distinct', same.symm⟩

/-- A text that starts as an object and is a configuration has members that describe it. -/
theorem exists_isDescribedBy_of_ofText {temporary text : String} {config : Config}
    (accepted : ofText temporary text = .ok config)
    (isObject : (skipBlanks text.toList).head? = some '{') :
    ∃ members, members? text.toList = some members ∧ config.IsDescribedBy temporary members := by
  obtain ⟨body, brace⟩ := List.head?_eq_some_iff.1 isObject
  obtain ⟨members, found⟩ := exists_members?_of_ofText accepted brace
  -- everything else is said of the settings that the members give
  obtain ⟨settings, all, distinct, rfl⟩ := (ofText_eq_ok_iff_of_members? found).1 accepted
  have inRange := vectorSize_inRange all distinct temporary
  refine ⟨members, found, fun _ => members?_and_ofText_of_perm found all distinct, ?_,
    nodup_map_name? all distinct, ?_, ?_, ?_⟩
  · intro member isMember
    obtain ⟨setting, -, spelled⟩ := exists_of_mem_of_forall₂ all isMember
    exact ⟨setting.1, spelled.name?⟩
  · intro field absent
    rw [mem_map_name?_iff all] at absent
    exact get_giveAll_of_notMem absent
  · exact ⟨inRange.1, inRange.2, VectorSize.clamp_of_le inRange.1 inRange.2⟩
  · intro member isMember named
    obtain ⟨written, -⟩ := vectorSize_of_name? all distinct temporary isMember named
    refine ⟨⟨_, written⟩, fun n builder given => ?_⟩
    have size : (giveAll (standard temporary) settings).vectorSize = n :=
      Numeral.toDigits_injective (Option.some.inj (written.symm.trans given))
    refine ⟨?_, build_withVectorSize_eq inRange.1 inRange.2 size⟩
    rw [← size]
    exact VectorSize.clamp_of_le inRange.1 inRange.2

/-- Brackets and commas inside of a value are not those of the object. -/
theorem exists_isDescribedBy_of_ofText_executable :
    let text := "\x7b \"artifact\": \x7b\"executable\": null\x7d,
      \"vector_size\": 256, \"compiler_args\": [\"-I\", \"a,b\"] \x7d"
    let temporary := "/tmp"
    let config : Config :=
      { Config.standard temporary with
        artifact := .executable, vectorSize := 256, arguments := ["-I", "a,b"] }
    ofText temporary text = .ok config ∧ (skipBlanks text.toList).head? = some '{' ∧
      ∃ members, members? text.toList = some members ∧ config.IsDescribedBy temporary members := by
  intro text temporary config
  have accepted : ofText temporary text = .ok config := by decide +kernel
  have isObject : (skipBlanks text.toList).head? = some '{' := by decide +kernel
  exact ⟨accepted, isObject, exists_isDescribedBy_of_ofText accepted isObject⟩

end PlanCompiler.Config
