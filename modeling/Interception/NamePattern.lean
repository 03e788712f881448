/-! Patterns for method names. A star at the start, at the end, or at both leaves that side of the
name open, a lone star matches every name, and a star elsewhere stands for itself. What stands between
two stars is cut out of the pattern by byte offsets, which always fall between characters. -/

namespace Interception.NamePattern

/-- Whether one list of characters stands somewhere inside another. -/
def occursIn (part : List Char) : List Char → Bool
  | [] => part.isEmpty
  | c :: rest => part.isPrefixOf (c :: rest) || occursIn part rest

/-- Whether the pattern, given by its characters, matches the name. -/
def matchesChars (pattern name : List Char) : Bool :=
  if pattern = ['*'] then true
  else match pattern.head? == some '*', pattern.getLast? == some '*' with
    | true, true => occursIn (pattern.drop 1).dropLast name
    | true, false => (pattern.drop 1).isSuffixOf name
    | false, true => pattern.dropLast.isPrefixOf name
    | false, false => name == pattern

theorem occursIn_iff (part name : List Char) : occursIn part name = true ↔ part <:+: name := by
  induction name with
  | nil => simp [occursIn]
  | cons c rest ih => simp [occursIn, ih, List.infix_cons_iff]

/-! ### Cutting by byte offsets -/

/-- The text between two byte offsets, if they are in order and fall between characters. -/
def slice? (text : String) (start stop : Nat) : Option String := do
  let first ← text.pos? ⟨start⟩
  let last ← text.pos? ⟨stop⟩
  (text.slice? first last).map (·.copy)

theorem pos?_of_append {text left right : String} (h : text = left ++ right) :
    ∃ position : text.Pos,
      text.pos? ⟨left.utf8ByteSize⟩ = some position ∧ position.Splits left right := by
  subst h
  have hvalid : left.rawEndPos.IsValid (left ++ right) :=
    String.Pos.Raw.isValid_rawEndPos.append_right right
  have hslice : String.Pos.Raw.isValidForSlice (left ++ right).toSlice left.rawEndPos = true :=
    String.Pos.Raw.isValidForSlice_eq_true_iff.mpr hvalid.toSlice
  refine ⟨(left ++ right).pos left.rawEndPos hvalid, ?_, String.Pos.splits_append_rawEndPos⟩
  change ((left ++ right).toSlice.pos? left.rawEndPos).map _ = _
  rw [String.Slice.pos?, dif_pos hslice]
  rfl

theorem slice?_append (before part after : String) :
    slice? (before ++ part ++ after) before.utf8ByteSize (before ++ part).utf8ByteSize = some part := by
  obtain ⟨first, hfirst, hbefore⟩ :=
    pos?_of_append (@String.append_assoc before part after)
  obtain ⟨last, hlast, hafter⟩ := pos?_of_append (@rfl _ (before ++ part ++ after))
  obtain ⟨hle, hcopy⟩ := String.copy_slice_eq_iff_splits.mpr ⟨before, after, hbefore, hafter⟩
  simp only [slice?, hfirst, hlast, bind, Option.bind, String.slice?, dif_pos hle, Option.map_some, hcopy]

/-- Whether the pattern matches the name. There is no verdict where the text between the stars cannot
be cut out. -/
def verdict? (pattern name : String) : Option Bool :=
  if pattern.toList = ['*'] then some true
  else match pattern.toList.head? == some '*', pattern.toList.getLast? == some '*' with
    | true, true =>
      (slice? pattern 1 (pattern.utf8ByteSize - 1)).map fun part => occursIn part.toList name.toList
    | true, false => some ((pattern.toList.drop 1).isSuffixOf name.toList)
    | false, true => some (pattern.toList.dropLast.isPrefixOf name.toList)
    | false, false => some (name.toList == pattern.toList)

/-- Characters that begin and end with a star, of which there are two. -/
theorem eq_between_stars {chars : List Char} (hlone : chars ≠ ['*'])
    (hhead : chars.head? = some '*') (hlast : chars.getLast? = some '*') :
    ∃ middle, chars = '*' :: middle ++ ['*'] := by
  obtain ⟨rest, rfl⟩ := List.head?_eq_some_iff.mp hhead
  obtain ⟨front, hfront⟩ := List.getLast?_eq_some_iff.mp hlast
  cases front with
  | nil => exact absurd hfront hlone
  | cons c middle =>
    obtain ⟨rfl, rfl⟩ := List.cons_eq_cons.mp hfront
    exact ⟨middle, rfl⟩

/-- **There always is a verdict**, the one that the characters give. -/
theorem verdict?_eq (pattern name : String) :
    verdict? pattern name = some (matchesChars pattern.toList name.toList) := by
  unfold verdict? matchesChars
  by_cases hlone : pattern.toList = ['*']
  · rw [if_pos hlone, if_pos hlone]
  rw [if_neg hlone, if_neg hlone]
  split
  · next hhead hlast =>
    -- one byte is cut off at each end, which is what a star takes
    obtain ⟨middle, hmiddle⟩ := eq_between_stars hlone (beq_iff_eq.mp hhead) (beq_iff_eq.mp hlast)
    have hpattern : pattern = "*" ++ String.ofList middle ++ "*" := by
      rw [← String.toList_inj, hmiddle]
      simp
    have hsize : pattern.utf8ByteSize - 1 = ("*" ++ String.ofList middle).utf8ByteSize := by
      have hstar : "*".utf8ByteSize = 1 := by decide
      rw [hpattern, String.utf8ByteSize_append, hstar, Nat.add_sub_cancel]
    have hslice : slice? pattern 1 (pattern.utf8ByteSize - 1) = some (String.ofList middle) := by
      rw [hsize, hpattern]
      exact slice?_append "*" (String.ofList middle) "*"
    rw [hslice, hmiddle, Option.map_some, String.toList_ofList]
    simp
  · rfl
  · rfl
  · rfl

/-- Whether the pattern matches the name. -/
def matchesName (pattern name : String) : Bool :=
  (verdict? pattern name).get (by rw [verdict?_eq]; rfl)

/-- Whether some pattern of the list matches the name. -/
def anyMatches (patterns : List String) (name : String) : Bool :=
  patterns.any fun pattern => matchesName pattern name

theorem matchesName_eq (pattern name : String) :
    matchesName pattern name = matchesChars pattern.toList name.toList := by
  simp only [matchesName, verdict?_eq, Option.get_some]

end Interception.NamePattern
