import DocTemplate.Marker.TemplateScan
import DocTemplate.Proofs.Marker.Tokens

/-!
# The fields of a template and its variables

The template of an asset section is read in two ways. The fields that are reported are all that
stands between double braces, as it is written there; the variables that are found have names, which
neither hold a colon nor are empty. Both lists are made from the same placeholders
(`templateVariables_eq`), each text once and in the order of first occurrences, so the names can be
read off the fields. They are the fields themselves exactly if no placeholder is blank or holds a
colon (`templateFields_eq_templateVariables_iff`).
-/

namespace DocTemplate

/-- What stands in the placeholders of a text, trimmed. -/
def placeholderContents (t : Text) : List Text :=
  (Text.scanFrom (tag variableOpening '\x7d') 0 0 t).map (·.value.trim)

/-- The name of the variable that a placeholder with this content is, if it is one. -/
def variableName? (content : Text) : Option Text :=
  if isAssetTag content || (splitContent content).1.isEmpty then none
  else some (splitContent content).1

/-- The names of the variables of a template, each once, in the order of their first occurrences. -/
def templateVariables (template : Text) : List Text :=
  (resolve ((findVariables template []).map Token.var)).map (·.name)

/-! ## Distinct texts -/

section Distinct

variable {seen seen' : List Text} {name? : Text → Option Text}

/-- Leaving out repetitions first does not change which distinct names texts have. -/
theorem distinctFrom_filterMap_distinctFrom
    (hseen : ∀ t ∈ seen, ∀ name, name? t = some name → name ∈ seen') (found : List Text) :
    distinctFrom seen' ((distinctFrom seen found).filterMap name?) =
      distinctFrom seen' (found.filterMap name?) := by
  induction found generalizing seen seen' with
  | nil => rfl
  | cons t rest ih =>
    by_cases ht : t ∈ seen
    · rw [distinctFrom, if_pos ht, ih hseen]
      cases hname : name? t with
      | none => rw [List.filterMap_cons_none hname]
      | some name =>
        rw [List.filterMap_cons_some hname, distinctFrom, if_pos (hseen t ht name hname)]
    · rw [distinctFrom, if_neg ht]
      cases hname : name? t with
      | none =>
        rw [List.filterMap_cons_none hname, List.filterMap_cons_none hname]
        refine ih (List.forall_mem_cons.2 ⟨fun name h => ?_, hseen⟩)
        exact absurd (hname.symm.trans h) (by simp)
      | some name =>
        rw [List.filterMap_cons_some hname, List.filterMap_cons_some hname, distinctFrom,
          distinctFrom]
        have hsame : ∀ other, name? t = some other → other = name :=
          fun other h => Option.some.inj (h.symm.trans hname)
        by_cases hnew : name ∈ seen'
        · rw [if_pos hnew, if_pos hnew]
          exact ih (List.forall_mem_cons.2 ⟨fun other h => hsame other h ▸ hnew, hseen⟩)
        · rw [if_neg hnew, if_neg hnew]
          refine congrArg _ (ih (List.forall_mem_cons.2 ⟨?_, ?_⟩))
          · exact fun other h => hsame other h ▸ List.mem_cons_self
          · exact fun u hu other h => List.mem_cons_of_mem _ (hseen u hu other h)

theorem resolveFrom_names (seen : List Text) (vars : List Variable) :
    (resolveFrom seen vars).map (·.name) = distinctFrom seen (vars.map (·.name)) := by
  induction vars generalizing seen with
  | nil => rfl
  | cons v rest ih =>
    rw [resolveFrom, List.map_cons, distinctFrom]
    split
    · exact ih seen
    · rw [List.map_cons, ih]

end Distinct

/-! ## Variables and placeholders -/

/-- A search that leaves nothing out is a search of the whole text. -/
theorem findInGaps_nil {α : Type} (find : Text → Option (α × Nat)) (t : Text) :
    findInGaps find t [] = Text.scanFrom find 0 0 t := by
  rw [findInGaps, gaps, List.mergeSort_nil, gapsFrom]
  cases t with
  | nil => rfl
  | cons c rest =>
    rw [if_pos (show 0 < (c :: rest).length from Nat.zero_lt_succ _), List.flatMap_singleton]
    exact congrArg (Text.scanFrom find 0 0) List.take_length

theorem variableOf_name (t : Text) (found : Text.Found Text) :
    (variableOf t found).map (·.name) = variableName? found.value.trim := by
  unfold variableOf variableName?
  simp only
  split <;> rfl

/-- The names of variables are those of the placeholders that have one. -/
theorem templateVariables_eq (template : Text) :
    templateVariables template =
      distinctFrom [] ((placeholderContents template).filterMap variableName?) := by
  have hvars : ((findVariables template []).map Token.var).filterMap Token.var? =
      findVariables template [] := by
    rw [List.filterMap_map]
    exact List.filterMap_some
  have hnames : (findVariables template []).map (·.name) =
      (placeholderContents template).filterMap variableName? := by
    rw [findVariables, findInGaps_nil, placeholderContents, List.map_filterMap, List.filterMap_map]
    exact List.filterMap_congr fun found _ => variableOf_name template found
  rw [templateVariables, resolve, hvars, resolveFrom_names, hnames]

theorem trim_of_mem_placeholderContents {t content : Text} (h : content ∈ placeholderContents t) :
    content.trim = content := by
  obtain ⟨found, -, rfl⟩ := List.mem_map.1 h
  exact Text.trim_trim found.value

/-- What is the name of a variable is not empty and holds no colon. -/
theorem plain_of_variableName? {content name : Text} (h : variableName? content = some name) :
    name ≠ [] ∧ ':' ∉ name := by
  unfold variableName? at h
  split at h
  · exact absurd h (by simp)
  · next hname =>
    obtain rfl := Option.some.inj h
    rw [Bool.or_eq_true, not_or, List.isEmpty_iff] at hname
    exact ⟨hname.2, colon_notMem_splitContent content⟩

/-- Every tag of an asset section holds a colon. -/
theorem isAssetTag_of_colon_notMem {content : Text} (h : ':' ∉ content) :
    isAssetTag content = false := by
  have hstart : ∀ start : Text, ':' ∈ start → (Text.stripStart start content).isSome = false := by
    intro start hcolon
    rw [Bool.eq_false_iff, Ne, Text.isSome_stripStart_iff]
    exact fun hstarts => h (hstarts.subset hcolon)
  rw [isAssetTag, hstart _ (by decide), hstart _ (by decide), Bool.or_self]

theorem splitContent_of_colon_notMem {content : Text} (htrim : content.trim = content)
    (h : ':' ∉ content) : (splitContent content).1 = content := by
  have hwhole : content.takeWhile (· ≠ ':') = content :=
    List.takeWhile_eq_self_iff.2 fun c hc => decide_eq_true fun heq => h (heq ▸ hc)
  rw [splitContent, htrim, hwhole, htrim]

theorem variableName?_of_plain {content : Text} (htrim : content.trim = content)
    (hne : content ≠ []) (h : ':' ∉ content) : variableName? content = some content := by
  rw [variableName?, isAssetTag_of_colon_notMem h, splitContent_of_colon_notMem htrim h, if_neg]
  simpa using hne

theorem templateFields_eq (template : Text) :
    templateFields template = distinctFrom [] (placeholderContents template) := rfl

/-- The fields are the names of the variables exactly if no placeholder is blank or holds a
colon. -/
theorem templateFields_eq_templateVariables_iff (template : Text) :
    templateFields template = templateVariables template ↔
      ∀ content ∈ placeholderContents template, content ≠ [] ∧ ':' ∉ content := by
  constructor
  · intro hsame content hcontent
    have hname : content ∈ templateVariables template := by
      rw [← hsame, templateFields_eq, mem_distinctFrom]
      exact ⟨hcontent, List.not_mem_nil⟩
    rw [templateVariables_eq, mem_distinctFrom, List.mem_filterMap] at hname
    obtain ⟨⟨other, -, hother⟩, -⟩ := hname
    exact plain_of_variableName? hother
  · intro hplain
    have hall : (placeholderContents template).filterMap variableName? =
        placeholderContents template := by
      rw [List.filterMap_congr (g := some), List.filterMap_some]
      intro content hcontent
      obtain ⟨hne, hcolon⟩ := hplain content hcontent
      exact variableName?_of_plain (trim_of_mem_placeholderContents hcontent) hne hcolon
    rw [templateVariables_eq, hall, templateFields_eq]

/-- **The fields of a template are what stands in its placeholders.** Each is trimmed and reported
once, and the names of the variables can be read off them: by leaving out what is no variable,
cutting off declared types, and leaving out the repetitions that come from that. The fields
themselves are these names exactly if no placeholder is blank or holds a colon. -/
theorem templateFields_names (template : Text) :
    (templateFields template).Nodup ∧
    (∀ field ∈ templateFields template, field.trim = field) ∧
    templateVariables template =
      distinctFrom [] ((templateFields template).filterMap variableName?) ∧
    (templateFields template = templateVariables template ↔
      ∀ content ∈ placeholderContents template, content ≠ [] ∧ ':' ∉ content) := by
  refine ⟨nodup_distinctFrom _ _, fun field hfield => ?_, ?_,
    templateFields_eq_templateVariables_iff template⟩
  · exact trim_of_mem_placeholderContents (mem_distinctFrom.1 hfield).1
  · rw [templateFields_eq, templateVariables_eq,
      distinctFrom_filterMap_distinctFrom fun t ht => absurd ht List.not_mem_nil]

/-- An asset section whose template declares the type of its only field. -/
def typedFieldBlock : Text :=
  "\x7b\x7b#ASSET_SECTION:S\x7d\x7d\x7b\x7ba:date\x7d\x7d\x7b\x7b/#ASSET_SECTION:S\x7d\x7d".toList

/-- The declared type is reported as part of the field. -/
theorem templateFields_ne_templateVariables_typedField :
    ∃ block ∈ findAssetBlocks typedFieldBlock,
      templateFields block.template = ["a:date".toList] ∧
        templateVariables block.template = ["a".toList] ∧
        templateFields block.template ≠ templateVariables block.template := by
  have hblocks : findAssetBlocks typedFieldBlock =
      [⟨['S'], "\x7b\x7ba:date\x7d\x7d".toList, typedFieldBlock, 0, 51⟩] := rfl
  have hnames : templateVariables "\x7b\x7ba:date\x7d\x7d".toList = ["a".toList] := by
    rw [templateVariables_eq]
    decide
  refine ⟨_, hblocks ▸ List.mem_cons_self, by decide, hnames, ?_⟩
  rw [hnames]
  decide

end DocTemplate
