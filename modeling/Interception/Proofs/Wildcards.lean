import Interception.MethodMatcher

/-! What patterns for method names stand for. A pattern is open on the sides on which it has a star, and
covers the names that have the rest of it where its closed sides fix it. Matching finds out just that,
and always comes to a verdict: what is cut out of a pattern is cut between its characters. -/

namespace Interception

namespace NamePattern

/-- The pattern leaves the start of a name open. -/
def OpensStart (pattern : String) : Prop := ∃ rest, pattern = "*" ++ rest

/-- The pattern leaves the end of a name open. -/
def OpensEnd (pattern : String) : Prop := ∃ rest, pattern = rest ++ "*"

/-- The pattern stands for the name. -/
inductive Covers : String → String → Prop where
  /-- A lone star stands for every name. -/
  | everything (name : String) : Covers "*" name
  /-- What stands between two stars occurs somewhere in the name. -/
  | inside (before part after : String) : Covers ("*" ++ part ++ "*") (before ++ part ++ after)
  /-- What stands behind the only open side ends the name. -/
  | ending (before part : String) (hend : ¬ OpensEnd ("*" ++ part)) :
    Covers ("*" ++ part) (before ++ part)
  /-- What stands in front of the only open side begins the name. -/
  | beginning (part after : String) (hstart : ¬ OpensStart (part ++ "*")) :
    Covers (part ++ "*") (part ++ after)
  /-- A pattern without an open side stands for itself. -/
  | whole (name : String) (hstart : ¬ OpensStart name) (hend : ¬ OpensEnd name) : Covers name name

/-! ### Patterns by their characters -/

theorem toList_star : "*".toList = ['*'] := by decide

theorem toList_star_append (rest : String) : ("*" ++ rest).toList = '*' :: rest.toList := by
  rw [String.toList_append, toList_star, List.singleton_append]

theorem toList_append_star (rest : String) : (rest ++ "*").toList = rest.toList ++ ['*'] := by
  rw [String.toList_append, toList_star]

theorem eq_star_append {pattern : String} {rest : List Char} (h : pattern.toList = '*' :: rest) :
    pattern = "*" ++ String.ofList rest := by
  rw [← String.toList_inj, toList_star_append, String.toList_ofList, h]

theorem eq_append_star {pattern : String} {rest : List Char} (h : pattern.toList = rest ++ ['*']) :
    pattern = String.ofList rest ++ "*" := by
  rw [← String.toList_inj, toList_append_star, String.toList_ofList, h]

theorem opensStart_iff {pattern : String} : OpensStart pattern ↔ pattern.toList.head? = some '*' := by
  rw [List.head?_eq_some_iff]
  constructor
  · rintro ⟨rest, rfl⟩
    exact ⟨rest.toList, toList_star_append rest⟩
  · rintro ⟨rest, hrest⟩
    exact ⟨String.ofList rest, eq_star_append hrest⟩

theorem opensEnd_iff {pattern : String} : OpensEnd pattern ↔ pattern.toList.getLast? = some '*' := by
  rw [List.getLast?_eq_some_iff]
  constructor
  · rintro ⟨rest, rfl⟩
    exact ⟨rest.toList, toList_append_star rest⟩
  · rintro ⟨rest, hrest⟩
    exact ⟨String.ofList rest, eq_append_star hrest⟩

section Characters

variable {part name : List Char}

theorem matchesChars_inside : matchesChars ('*' :: part ++ ['*']) name = occursIn part name := by
  have hlone : '*' :: part ++ ['*'] ≠ ['*'] := by simp
  have hlast : ('*' :: part ++ ['*']).getLast? = some '*' := List.getLast?_concat
  rw [matchesChars, if_neg hlone, hlast]
  simp

theorem matchesChars_ending (hlast : ('*' :: part).getLast? ≠ some '*') :
    matchesChars ('*' :: part) name = part.isSuffixOf name := by
  have hlone : '*' :: part ≠ ['*'] := fun h => hlast (by rw [h]; rfl)
  rw [matchesChars, if_neg hlone, beq_eq_false_iff_ne.mpr hlast]
  rfl

theorem matchesChars_beginning (hhead : (part ++ ['*']).head? ≠ some '*') :
    matchesChars (part ++ ['*']) name = part.isPrefixOf name := by
  have hlone : part ++ ['*'] ≠ ['*'] := fun h => hhead (by rw [h]; rfl)
  rw [matchesChars, if_neg hlone, beq_eq_false_iff_ne.mpr hhead, List.getLast?_concat,
    List.dropLast_concat]
  rfl

theorem matchesChars_whole {pattern : List Char} (hhead : pattern.head? ≠ some '*')
    (hlast : pattern.getLast? ≠ some '*') : matchesChars pattern name = (name == pattern) := by
  have hlone : pattern ≠ ['*'] := fun h => hhead (by rw [h]; rfl)
  rw [matchesChars, if_neg hlone, beq_eq_false_iff_ne.mpr hhead, beq_eq_false_iff_ne.mpr hlast]

end Characters

/-! ### Matching -/

variable {pattern name : String}

theorem Covers.matchesName (h : Covers pattern name) : matchesName pattern name = true := by
  rw [matchesName_eq]
  cases h with
  | everything name => rfl
  | inside before part after =>
    rw [toList_append_star, toList_star_append, matchesChars_inside, occursIn_iff,
      String.toList_append, String.toList_append]
    exact ⟨before.toList, after.toList, rfl⟩
  | ending before part hend =>
    rw [opensEnd_iff, toList_star_append] at hend
    rw [toList_star_append, matchesChars_ending hend, List.isSuffixOf_iff_suffix, String.toList_append]
    exact List.suffix_append _ _
  | beginning part after hstart =>
    rw [opensStart_iff, toList_append_star] at hstart
    rw [toList_append_star, matchesChars_beginning hstart, List.isPrefixOf_iff_prefix,
      String.toList_append]
    exact List.prefix_append _ _
  | whole name hstart hend =>
    rw [matchesChars_whole (mt opensStart_iff.mpr hstart) (mt opensEnd_iff.mpr hend)]
    exact beq_self_eq_true _

theorem covers_of_matchesName (h : matchesName pattern name = true) : Covers pattern name := by
  rw [matchesName_eq] at h
  by_cases hlone : pattern.toList = ['*']
  · have hpattern : pattern = "*" := String.toList_inj.mp (hlone.trans toList_star.symm)
    exact hpattern ▸ .everything name
  by_cases hstart : OpensStart pattern <;> by_cases hend : OpensEnd pattern
  · obtain ⟨middle, hmiddle⟩ := eq_between_stars hlone (opensStart_iff.mp hstart) (opensEnd_iff.mp hend)
    rw [hmiddle, matchesChars_inside, occursIn_iff] at h
    obtain ⟨before, after, hname⟩ := h
    have hpattern : pattern = "*" ++ String.ofList middle ++ "*" := by
      rw [eq_append_star hmiddle, ← String.toList_inj, toList_append_star, toList_append_star,
        toList_star_append, String.toList_ofList, String.toList_ofList]
    have heq : name = String.ofList before ++ String.ofList middle ++ String.ofList after := by
      rw [← String.toList_inj, ← hname]
      simp only [String.toList_append, String.toList_ofList]
    rw [hpattern, heq]
    exact .inside _ _ _
  · obtain ⟨part, rfl⟩ := hstart
    have hlast := mt opensEnd_iff.mpr hend
    rw [toList_star_append] at h hlast
    rw [matchesChars_ending hlast, List.isSuffixOf_iff_suffix] at h
    obtain ⟨before, hname⟩ := h
    have heq : name = String.ofList before ++ part := by
      rw [← String.toList_inj, ← hname, String.toList_append, String.toList_ofList]
    rw [heq]
    exact .ending _ _ hend
  · obtain ⟨part, rfl⟩ := hend
    have hhead := mt opensStart_iff.mpr hstart
    rw [toList_append_star] at h hhead
    rw [matchesChars_beginning hhead, List.isPrefixOf_iff_prefix] at h
    obtain ⟨after, hname⟩ := h
    have heq : name = part ++ String.ofList after := by
      rw [← String.toList_inj, ← hname, String.toList_append, String.toList_ofList]
    rw [heq]
    exact .beginning _ _ hstart
  · rw [matchesChars_whole (mt opensStart_iff.mpr hstart) (mt opensEnd_iff.mpr hend), beq_iff_eq] at h
    rw [String.toList_inj.mp h]
    exact .whole _ hstart hend

end NamePattern

/-- **Name filters always come to a verdict, the one that their patterns stand for.** Cutting out what
stands between two stars succeeds for all patterns, and the filter accepts a method if and only if some
pattern covers its name. It looks at nothing else, and leaves the state and the journal alone. -/
theorem MethodFilter.named_accepts {σ : Type} (patterns : List String) (method : Method)
    (target : Class) :
    (∀ pattern, NamePattern.verdict? pattern method.name =
      some (NamePattern.matchesName pattern method.name)) ∧
    ∃ verdict, (named patterns : MethodFilter σ).accepts method target = Consultation.answer verdict ∧
      (verdict = true ↔ ∃ pattern ∈ patterns, NamePattern.Covers pattern method.name) := by
  refine ⟨fun pattern => ?_, NamePattern.anyMatches patterns method.name, rfl, ?_⟩
  · rw [NamePattern.verdict?_eq, NamePattern.matchesName_eq]
  · rw [NamePattern.anyMatches, List.any_eq_true]
    refine exists_congr fun pattern => and_congr_right fun _ => ?_
    exact ⟨NamePattern.covers_of_matchesName, NamePattern.Covers.matchesName⟩

end Interception
