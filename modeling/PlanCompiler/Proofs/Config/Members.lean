import PlanCompiler.Proofs.Config.Values

/-!
# Reading members

A member of an object names a setting and has a value of it. It is read on its own: the members in
front of it only matter in so far as they must not name the same setting, and those behind it do
not matter at all.

## Main definitions

* `Config.readMember`: reads one member;
* `Config.Spells`: a text is a member, with blanks around it or without;
* `Config.readBody`: reads the members of an object from one of them on.

## Main results

* `Config.takesParts_readMember`: members are parts of the text;
* `Config.spells_trim_iff`: blanks around a member do not matter;
* `Config.readBody_eq_ok_iff_exists`: the members of an object one by one.
-/

namespace PlanCompiler.Config

open Json

variable {text rest piece : List Char} {config config' : Config} {setting : Setting}

/-! ## One member -/

/-- Reads a member of an object: the name of a setting and its value. -/
def readMember : Reading Setting := fun text =>
  match skipBlanks text with
  | '"' :: rest => do
    let (name, rest) ← readContents rest
    match Field.ofName? name with
    | none => .error (.unfit (.unknownField name))
    | some field => do
      let (value, rest) ← readValue field (← readColon rest)
      .ok (⟨field, value⟩, rest)
  | _ => .error (.json .malformed)

/-- A member is read exactly from a name of a setting, a colon and a value for it. -/
theorem readMember_eq_ok_iff :
    readMember text = .ok (setting, rest) ↔ ∃ contents afterName afterColon,
      skipBlanks text = '"' :: contents ∧ readContents contents = .ok (setting.1.name, afterName) ∧
        skipBlanks afterName = ':' :: afterColon ∧
        readValue setting.1 afterColon = .ok (setting.2, rest) := by
  obtain ⟨field, value⟩ := setting
  unfold readMember
  constructor
  · intro found
    split at found
    · rename_i contents start
      obtain ⟨⟨name, afterName⟩, named, found⟩ := bind_eq_ok_iff.1 found
      dsimp only at found
      split at found
      · cases found
      · rename_i known isNamed
        obtain ⟨afterColon, colon, found⟩ := bind_eq_ok_iff.1 found
        obtain ⟨⟨read, after⟩, valued, result⟩ := bind_eq_ok_iff.1 found
        obtain ⟨same, rfl⟩ := Prod.mk.inj (Except.ok.inj result)
        obtain ⟨rfl, same⟩ := Sigma.mk.inj same
        obtain rfl := eq_of_heq same
        -- the field that was looked up is known by its name
        obtain rfl := Field.ofName?_eq_some_iff.1 isNamed
        exact ⟨contents, afterName, afterColon, start, named, readColon_eq_ok_iff.1 colon, valued⟩
    · cases found
  · rintro ⟨contents, afterName, afterColon, start, named, colon, valued⟩
    rw [start]
    refine bind_eq_ok_iff.2 ⟨_, named, ?_⟩
    dsimp only
    rw [Field.ofName?_eq_some_iff.2 rfl]
    exact bind_eq_ok_iff.2 ⟨_, readColon_eq_ok_iff.2 colon, bind_eq_ok_iff.2 ⟨_, valued, rfl⟩⟩

/-- Members are parts of the text. -/
theorem takesParts_readMember : TakesParts readMember EndsNumber .outside .outside := by
  intro text setting rest found
  obtain ⟨contents, afterName, afterColon, start, named, colon, valued⟩ :=
    readMember_eq_ok_iff.1 found
  obtain ⟨before, blank, rfl, skipped⟩ := exists_blanks_append start
  obtain ⟨name, rfl, isName⟩ := takesParts_readContents _ _ _ named
  obtain ⟨value, rfl, isValue⟩ := takesParts_colon (takesParts_readValue setting.1) afterName _ rest
    (bind_eq_ok_iff.2 ⟨_, readColon_eq_ok_iff.2 colon, valued⟩)
  refine ⟨before ++ '"' :: (name ++ value), by simp, ?_,
    ((isValue.ends.append name).cons _).append before, fun rest follow => ?_⟩
  · exact (uncut_of_allBlank blank).append (isName.uncut.append isValue.uncut).string
  · obtain ⟨behind, colon, valued⟩ := bind_eq_ok_iff.1 (isValue.read rest follow)
    rw [List.append_assoc, List.cons_append, List.append_assoc]
    exact readMember_eq_ok_iff.2 ⟨_, _, _, skipped _, isName.read _ trivial,
      readColon_eq_ok_iff.1 colon, valued⟩

/-- A text is a member that gives a setting, with blanks around it or without. -/
def Spells (piece : List Char) (setting : Setting) : Prop :=
  ∃ rest, readMember piece = .ok (setting, rest) ∧ AllBlank rest

/-- A number ends in front of blanks if it ends behind them. -/
theorem endsNumber_append {blanks : List Char} (blank : AllBlank blanks) (ends : EndsNumber rest) :
    EndsNumber (blanks ++ rest) := by
  cases blanks with
  | nil => exact ends
  | cons c blanks =>
    rintro _ ⟨⟩
    have first := blank c List.mem_cons_self
    simp only [isBlank, decide_eq_true_iff] at first
    rcases first with rfl | rfl | rfl | rfl <;> decide

/-- A number ends in front of blanks. -/
theorem endsNumber_of_allBlank (blank : AllBlank text) : EndsNumber text := by
  have ends := endsNumber_append blank endsNumber_nil
  rwa [List.append_nil] at ends

namespace Spells

/-- The part of the piece that is read. -/
theorem exists_isPart (h : Spells piece setting) : ∃ part blanks, piece = part ++ blanks ∧
    AllBlank blanks ∧ IsPart readMember EndsNumber .outside .outside part setting := by
  obtain ⟨blanks, read, blank⟩ := h
  obtain ⟨part, rfl, isPart⟩ := takesParts_readMember piece setting blanks read
  exact ⟨part, blanks, rfl, blank, isPart⟩

/-- A text that spells a setting is not cut. -/
theorem uncut (h : Spells piece setting) : Uncut .outside .outside piece := by
  obtain ⟨part, blanks, rfl, blank, isPart⟩ := h.exists_isPart
  exact isPart.uncut.append (uncut_of_allBlank blank)

/-- More blanks may follow, and then what ends a number. -/
theorem read_append (h : Spells piece setting) (ends : EndsNumber rest) :
    ∃ blanks, AllBlank blanks ∧ readMember (piece ++ rest) = .ok (setting, blanks ++ rest) := by
  obtain ⟨part, blanks, rfl, blank, isPart⟩ := h.exists_isPart
  refine ⟨blanks, blank, ?_⟩
  rw [List.append_assoc]
  exact isPart.read _ (endsNumber_append blank ends)

/-- Something else than blanks is there. -/
theorem trim_ne_nil (h : Spells piece setting) : Json.trim piece ≠ [] := by
  obtain ⟨rest, read, -⟩ := h
  obtain ⟨contents, _, _, start, -⟩ := readMember_eq_ok_iff.1 read
  intro empty
  rw [trim_eq_nil_iff, ← skipBlanks_eq_nil_iff, start] at empty
  cases empty

end Spells

/-- Blanks in front of a member are passed over. -/
theorem readMember_append {before : List Char} (blank : AllBlank before) :
    readMember (before ++ text) = readMember text := by
  rw [readMember, readMember, skipBlanks_append blank]

/-- Blanks around a member do not matter. -/
theorem spells_trim_iff : Spells (trim piece) setting ↔ Spells piece setting := by
  obtain ⟨before, after, blank, blank', whole⟩ := exists_trim piece
  have leading : readMember piece = readMember (trim piece ++ after) := by
    conv_lhs => rw [whole, readMember_append blank]
  constructor
  · intro h
    obtain ⟨blanks, more, read⟩ := h.read_append (endsNumber_of_allBlank blank')
    exact ⟨blanks ++ after, leading.trans read, List.forall_mem_append.2 ⟨more, blank'⟩⟩
  · intro h
    have ends := endsFilled_trim h.trim_ne_nil
    obtain ⟨rest, read, more⟩ := h
    obtain ⟨part, split, isPart⟩ := takesParts_readMember _ setting rest (leading.symm.trans read)
    -- both texts end where the blanks begin
    have same : trim piece = part := by
      rw [← rdropWhile_append blank' ends, split, rdropWhile_append more isPart.ends]
    rw [same]
    have whole := isPart.read [] endsNumber_nil
    rw [List.append_nil] at whole
    exact ⟨[], whole, allBlank_nil⟩

/-! ## All members -/

/-- Reads the members of an object from one of them on. -/
def readBody (left : List Field) (config : Config) : Reading Config := fun text =>
  match skipBlanks text with
  | '"' :: rest => readMembers left config rest
  | [] => .error (.json .incomplete)
  | _ => .error (.json .malformed)

/-- The name of a setting that is left is read exactly from its own string. -/
theorem readName_eq_ok_iff {left : List Field} {field : { field : Field // field ∈ left }} :
    readName left text = .ok (field, rest) ↔ readContents text = .ok (field.1.name, rest) := by
  unfold readName
  constructor
  · intro found
    obtain ⟨⟨name, after⟩, read, found⟩ := bind_eq_ok_iff.1 found
    dsimp only at found
    split at found
    · cases found
    -- a name is taken for a setting, which has to be one of those that are left
    · rename_i isNamed
      split at found
      · obtain ⟨rfl, rfl⟩ := Prod.mk.inj (Except.ok.inj found)
        rwa [Field.ofName?_eq_some_iff.1 isNamed]
      · cases found
  · intro read
    refine bind_eq_ok_iff.2 ⟨_, read, ?_⟩
    dsimp only
    rw [Field.ofName?_eq_some_iff.2 rfl]
    exact dif_pos field.2

/-- What comes behind a member: the end of the object, or a comma and others. -/
def ReadsOn (left : List Field) (config : Config) (text : List Char) (config' : Config)
    (rest : List Char) : Prop :=
  skipBlanks text = '}' :: rest ∧ config' = config ∨ ∃ tail,
    skipBlanks text = ',' :: tail ∧ readBody left config tail = .ok (config', rest)

/-- What members are read from: one of a setting that is left, and what comes behind it. -/
theorem exists_of_readBody {left : List Field}
    (found : readBody left config text = .ok (config', rest)) : ∃ setting after,
      readMember text = .ok (setting, after) ∧ setting.1 ∈ left ∧
        ReadsOn (left.erase setting.1) (config.give setting) after config' rest := by
  unfold readBody at found
  split at found
  · rename_i contents start
    rw [readMembers] at found
    obtain ⟨⟨⟨field, isLeft⟩, afterName⟩, named, found⟩ := bind_eq_ok_iff.1 found
    obtain ⟨afterColon, colon, found⟩ := bind_eq_ok_iff.1 found
    obtain ⟨⟨changed, after⟩, given, found⟩ := bind_eq_ok_iff.1 found
    rw [readField_eq] at given
    obtain ⟨⟨value, after'⟩, valued, result⟩ := bind_eq_ok_iff.1 given
    obtain ⟨rfl, rfl⟩ := Prod.mk.inj (Except.ok.inj result)
    -- the loop takes a name only if its setting is left, which a member alone does not tell
    have read : readMember text = .ok (⟨field, value⟩, after') :=
      readMember_eq_ok_iff.2 ⟨_, _, _, start, readName_eq_ok_iff.1 named,
        readColon_eq_ok_iff.1 colon, valued⟩
    refine ⟨⟨field, value⟩, after', read, isLeft, ?_⟩
    dsimp only at found
    split at found
    · rename_i brace
      obtain ⟨rfl, rfl⟩ := Prod.mk.inj (Except.ok.inj found)
      exact .inl ⟨brace, rfl⟩
    · cases found
    · rename_i tail comma
      exact .inr ⟨tail, comma, found⟩
    · cases found
  · cases found
  · cases found

/-- A member of a setting that is left is read, and then what comes behind it. -/
theorem readBody_of_readMember {left : List Field} {after : List Char}
    (read : readMember text = .ok (setting, after)) (isLeft : setting.1 ∈ left)
    (more : ReadsOn (left.erase setting.1) (config.give setting) after config' rest) :
    readBody left config text = .ok (config', rest) := by
  obtain ⟨field, value⟩ := setting
  obtain ⟨contents, afterName, afterColon, start, named, colon, valued⟩ :=
    readMember_eq_ok_iff.1 read
  unfold readBody
  rw [start]
  show readMembers left config contents = _
  rw [readMembers]
  -- name, colon and value are read like those of the member alone
  refine bind_eq_ok_iff.2 ⟨(⟨field, isLeft⟩, afterName), readName_eq_ok_iff.2 named, ?_⟩
  refine bind_eq_ok_iff.2 ⟨afterColon, readColon_eq_ok_iff.2 colon, ?_⟩
  refine bind_eq_ok_iff.2 ⟨(config.set field value, after), ?_, ?_⟩
  · rw [readField_eq]
    exact bind_eq_ok_iff.2 ⟨_, valued, rfl⟩
  · dsimp only
    obtain ⟨brace, rfl⟩ | ⟨tail, comma, others⟩ := more
    · rw [brace]
      rfl
    · rw [comma]
      exact others

/-- A member and the mark behind it. -/
theorem exists_spells_append {after : List Char} {c : Char}
    (read : readMember text = .ok (setting, after)) (mark : skipBlanks after = c :: rest) :
    ∃ piece, text = piece ++ c :: rest ∧ Spells piece setting := by
  obtain ⟨part, rfl, isPart⟩ := takesParts_readMember text setting after read
  obtain ⟨blanks, blank, rfl, -⟩ := exists_blanks_append mark
  exact ⟨part ++ blanks, (List.append_assoc _ _ _).symm, blanks,
    isPart.read blanks (endsNumber_of_allBlank blank), blank⟩

/-- A text that spells a setting is read in front of a comma or a brace. -/
theorem Spells.read_append_mark (h : Spells piece setting) {c : Char} (mark : c = ',' ∨ c = '}') :
    ∃ after, readMember (piece ++ c :: rest) = .ok (setting, after) ∧
      skipBlanks after = c :: rest := by
  have ends : EndsNumber (c :: rest) := by
    rintro _ ⟨⟩
    rcases mark with rfl | rfl <;> decide
  have starts : StartsFilled (c :: rest) := by
    refine ⟨c, rest, rfl, ?_⟩
    rcases mark with rfl | rfl <;> decide
  obtain ⟨blanks, blank, read⟩ := h.read_append ends
  exact ⟨_, read, by rw [skipBlanks_append blank, starts.skipBlanks_eq]⟩

/-- Members that are read are separated by commas, and each of them spells a setting. -/
theorem exists_pieces_of_readBody {left : List Field} (distinct : left.Nodup)
    (found : readBody left config text = .ok (config', rest)) : ∃ pieces settings,
      pieces ≠ [] ∧ text = [','].intercalate pieces ++ '}' :: rest ∧
        List.Forall₂ Spells pieces settings ∧ Distinct settings ∧
        (∀ setting ∈ settings, setting.1 ∈ left) ∧ config' = config.giveAll settings := by
  -- the settings that are left become fewer
  induction count : left.length generalizing left config text with
  | zero =>
    obtain ⟨setting, _, -, isLeft, -⟩ := exists_of_readBody found
    rw [List.length_eq_zero_iff.1 count] at isLeft
    cases isLeft
  | succ n ih =>
    obtain ⟨setting, after, read, isLeft, more⟩ := exists_of_readBody found
    obtain ⟨brace, rfl⟩ | ⟨tail, comma, others⟩ := more
    · obtain ⟨piece, rfl, spelled⟩ := exists_spells_append read brace
      exact ⟨[piece], [setting], List.cons_ne_nil _ _, by simp, .cons spelled .nil,
        List.nodup_singleton _, by simpa using isLeft, rfl⟩
    · obtain ⟨piece, rfl, spelled⟩ := exists_spells_append read comma
      have fewer : (left.erase setting.1).length = n := by
        rw [List.length_erase_of_mem isLeft, count]
        rfl
      obtain ⟨pieces, settings, nonempty, rfl, all, different, known, rfl⟩ :=
        ih (distinct.erase _) others fewer
      refine ⟨piece :: pieces, setting :: settings, List.cons_ne_nil _ _, ?_, .cons spelled all,
        ?_, ?_, rfl⟩
      · simp [List.intercalate_cons_of_ne_nil nonempty]
      · refine List.nodup_cons.2 ⟨fun again => ?_, different⟩
        obtain ⟨other, member, same⟩ := List.mem_map.1 again
        exact (distinct.mem_erase_iff.1 (known other member)).1 same
      · exact List.forall_mem_cons.2
          ⟨isLeft, fun other member => List.mem_of_mem_erase (known other member)⟩

/-- Pieces that spell different settings are read as members between commas. -/
theorem readBody_pieces {left : List Field} (distinct : left.Nodup) {pieces : List (List Char)}
    {settings : List Setting} (nonempty : pieces ≠ []) (all : List.Forall₂ Spells pieces settings)
    (different : Distinct settings) (known : ∀ setting ∈ settings, setting.1 ∈ left) :
    readBody left config ([','].intercalate pieces ++ '}' :: rest) =
      .ok (config.giveAll settings, rest) := by
  -- the setting of the first member is used up, and no other member names it
  induction all generalizing left config with
  | nil => exact absurd rfl nonempty
  | @cons piece setting pieces settings spelled all ih =>
    obtain ⟨isLeft, known⟩ := List.forall_mem_cons.1 known
    obtain ⟨absent, different⟩ := List.nodup_cons.1 different
    cases all with
    | nil =>
      obtain ⟨after, read, brace⟩ := spelled.read_append_mark (.inr rfl)
      exact readBody_of_readMember (by simpa using read) isLeft (.inl ⟨brace, rfl⟩)
    | cons next others =>
      obtain ⟨after, read, comma⟩ := spelled.read_append_mark (.inl rfl)
      refine readBody_of_readMember (by simpa using read) isLeft (.inr ⟨_, comma, ?_⟩)
      refine ih (distinct.erase _) (List.cons_ne_nil _ _) different fun other member => ?_
      refine distinct.mem_erase_iff.2 ⟨fun same => absent ?_, known other member⟩
      exact List.mem_map.2 ⟨other, member, same⟩

/-- The members of an object are separated by commas, and each of them is read on its own. -/
theorem readBody_eq_ok_iff_exists {left : List Field} (distinct : left.Nodup) :
    readBody left config text = .ok (config', rest) ↔ ∃ pieces settings,
      pieces ≠ [] ∧ text = [','].intercalate pieces ++ '}' :: rest ∧
        List.Forall₂ Spells pieces settings ∧ Distinct settings ∧
        (∀ setting ∈ settings, setting.1 ∈ left) ∧ config' = config.giveAll settings := by
  refine ⟨exists_pieces_of_readBody distinct, ?_⟩
  rintro ⟨pieces, settings, nonempty, rfl, all, different, known, rfl⟩
  exact readBody_pieces distinct nonempty all different known

end PlanCompiler.Config
