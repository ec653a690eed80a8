import EntityGraph.Proofs.Annotations.Token

/-!
# Reading lines

A line is read word by word behind the marks of a comment.

* `foldl_addFlag` says which flags a list of words sets;
* `uncomment_of_commented` and `isPropertyLine_iff` say what is behind the marks of a comment;
* `parseLine_eq_ok` says what the words of a line are if it is read;
* `parseLine_of_writes` and `wellFormed_of_parseLine`: a written line is read, and what is read is
  well-formed.
-/

namespace EntityGraph.Annotations

variable {m : ModelId} {known : ModelId → Bool} {p : Property}

/-! ### Flags -/

/-- A property with some flags set. -/
def withFlags (p : Property) (isSet : String → Bool) : Property :=
  { p with
    computed := p.computed || isSet "@computed"
    paginated := p.paginated || isSet "@paginate"
    filterable := p.filterable || isSet "@filterable"
    orderable := p.orderable || isSet "@orderable"
    eagerLoadDisabled := p.eagerLoadDisabled || isSet "@eager-load-disabled" }

/-- A property with no flag set. -/
def unflagged (p : Property) : Property :=
  { p with
    computed := false
    paginated := false
    filterable := false
    orderable := false
    eagerLoadDisabled := false }

theorem flags_withFlags_unflagged (p : Property) (isSet : String → Bool) :
    ∀ flag ∈ flags, flag.2 (withFlags (unflagged p) isSet) = isSet flag.1 := by
  simp [flags, withFlags, unflagged]

theorem withFlags_unflagged {isSet : String → Bool} (h : ∀ flag ∈ flags, flag.2 p = isSet flag.1) :
    withFlags (unflagged p) isSet = p := by
  simp only [flags, List.forall_mem_cons] at h
  obtain ⟨hpaginated, hfilterable, horderable, hcomputed, heager, -⟩ := h
  simp only [withFlags, unflagged, Bool.false_or, ← hpaginated, ← hfilterable, ← horderable,
    ← hcomputed, ← heager]

theorem addFlag_eq (p : Property) (word : List Char) :
    addFlag p word = withFlags p fun flag => decide (flag.toList = word) := by
  have hword : ∀ flag : String, String.ofList word = flag ↔ flag.toList = word := fun flag => by
    rw [← String.toList_inj, String.toList_ofList, eq_comm]
  simp only [addFlag, hword, withFlags]
  split_ifs with h1 h2 h3 h4 h5
  · rw [← h1]
    simp
  · rw [← h2]
    simp
  · rw [← h3]
    simp
  · rw [← h4]
    simp
  · rw [← h5]
    simp
  · simp only [h1, h2, h3, h4, h5, decide_false, Bool.or_false]

/-- Each flag is set by its word, wherever that stands, and other words change nothing. -/
theorem foldl_addFlag (words : List (List Char)) (p : Property) :
    words.foldl addFlag p = withFlags p fun flag => decide (flag.toList ∈ words) := by
  induction words generalizing p with
  | nil => simp [withFlags]
  | cons word words ih =>
    rw [List.foldl_cons, ih, addFlag_eq]
    simp only [withFlags, List.mem_cons, Bool.decide_or, Bool.or_assoc]

/-! ### Comments -/

/-- A text that starts with an annotation, and the same with an indentation, starts with no mark of
a comment. -/
theorem not_prefix_annotation {gap body : List Char} {c : Char} {mark : List Char}
    (hgap : Text.Blank gap) (hbody : "@".toList <+: body) (hblank : Text.isBlank c = false)
    (hc : c ≠ '@') : ¬ c :: mark <+: gap ++ body := by
  obtain ⟨rest, rfl⟩ := hbody
  rintro ⟨tail, htail⟩
  cases gap with
  | nil =>
    obtain ⟨rfl, -⟩ := List.cons.inj htail
    exact hc rfl
  | cons d gap =>
    obtain ⟨rfl, -⟩ := List.cons.inj htail
    exact hgap.not_mem hblank List.mem_cons_self

/-- The marks of a comment, and an indentation behind them, are taken off an annotation. -/
theorem stripAll_marks {gap body : List Char} (hgap : Text.Blank gap) (hbody : "@".toList <+: body)
    (slashes stars : Nat) :
    Text.stripAll "*".toList (Text.stripAll "///".toList
      (Text.copies "///".toList slashes ++ (Text.copies "*".toList stars ++ (gap ++ body))))
      = gap ++ body := by
  have hslash : ¬ "///".toList <+: Text.copies "*".toList stars ++ (gap ++ body) := by
    cases stars with
    | zero =>
      show ¬ "///".toList <+: gap ++ body
      exact not_prefix_annotation hgap hbody (by decide) (by decide)
    | succ stars =>
      intro h
      exact absurd (List.cons_prefix_cons.1 h).1 (by decide)
  have hstar : ¬ "*".toList <+: gap ++ body :=
    not_prefix_annotation hgap hbody (by decide) (by decide)
  rw [Text.stripAll_copies (by decide) hslash, Text.stripAll_copies (by decide) hstar]

theorem solid_copies {mark : List Char} (h : Text.Solid mark) (n : Nat) :
    Text.Solid (Text.copies mark n) := fun c hc => by
  obtain ⟨copy, hcopy, hin⟩ := List.mem_flatten.1 hc
  exact h c (List.eq_of_mem_replicate hcopy ▸ hin)

/-- Outer blanks are taken off a text with marks before it; without marks, the blanks before the
text are outer ones. -/
theorem exists_trim_marks {indent marks before body after : List Char}
    (hindent : Text.Blank indent) (hmarks : Text.Solid marks) (hbefore : Text.Blank before)
    (hafter : Text.Blank after) (hbody : Text.Trimmed body) (hne : body ≠ []) :
    ∃ gap, Text.Blank gap ∧
      Text.trim (indent ++ marks ++ (before ++ body ++ after)) = marks ++ (gap ++ body) := by
  cases marks with
  | nil =>
    refine ⟨[], Text.blank_nil, ?_⟩
    have h := Text.trim_eq (hindent.append hbefore) hafter hbody
    simpa only [List.append_assoc, List.nil_append] using h
  | cons c marks =>
    have htrimmed : Text.Trimmed (c :: marks ++ (before ++ body)) := by
      refine ⟨fun d hd => ?_, fun d hd => hbody.2 d ?_⟩
      · obtain rfl : c = d := Option.some.inj hd
        exact hmarks c List.mem_cons_self
      · rwa [← List.append_assoc, List.getLast?_append_of_ne_nil _ hne] at hd
    refine ⟨before, hbefore, ?_⟩
    have h := Text.trim_eq hindent hafter htrimmed
    simpa only [List.append_assoc] using h

/-- What is behind the marks of a comment, if it is an annotation. -/
theorem uncomment_of_commented {line text : List Char} (h : Commented line text)
    (hstart : "@".toList <+: Text.trim text) : uncomment line = Text.trim text := by
  obtain ⟨indent, slashes, stars, hindent, rfl⟩ := h
  obtain ⟨before, after, hbefore, hafter, htext⟩ := Text.exists_blank_trim text
  have htrimmed := Text.trimmed_trim text
  have hne : Text.trim text ≠ [] := List.IsPrefix.ne_nil hstart (by decide)
  have hmarks : Text.Solid
      (Text.copies "///".toList slashes ++ Text.copies "*".toList stars) :=
    List.forall_mem_append.2
      ⟨solid_copies (by decide) slashes, solid_copies (by decide) stars⟩
  obtain ⟨gap, hgap, htrim⟩ := exists_trim_marks hindent hmarks hbefore hafter htrimmed hne
  rw [← htext, ← List.append_assoc, List.append_assoc (Text.copies _ _)] at htrim
  rw [uncomment, htrim, stripAll_marks hgap hstart]
  have h := Text.trim_eq hgap Text.blank_nil htrimmed
  rwa [List.append_nil] at h

theorem exists_commented (line : List Char) :
    ∃ text, Commented line text ∧ uncomment line = Text.trim text := by
  obtain ⟨before, after, hbefore, hafter, hline⟩ := Text.exists_blank_trim line
  obtain ⟨slashes, hslashes⟩ := Text.exists_copies_stripAll "///".toList (Text.trim line)
  obtain ⟨stars, hstars⟩ :=
    Text.exists_copies_stripAll "*".toList (Text.stripAll "///".toList (Text.trim line))
  refine ⟨Text.stripAll "*".toList (Text.stripAll "///".toList (Text.trim line)) ++ after,
    ⟨before, slashes, stars, hbefore, ?_⟩, (Text.trim_append_blank _ hafter).symm⟩
  calc line = before ++ Text.trim line ++ after := hline
    _ = _ := by
      conv_lhs => rw [hslashes, hstars]
      simp only [List.append_assoc]

/-- Whether a line claims to describe a property shows when its comment is taken off. -/
theorem isPropertyLine_iff {line : List Char} :
    IsPropertyLine line ↔ "@property".toList <+: uncomment line := by
  constructor
  · rintro ⟨text, hline, hstart⟩
    rwa [uncomment_of_commented hline (List.IsPrefix.trans (by decide) hstart)]
  · intro h
    obtain ⟨text, hline, heq⟩ := exists_commented line
    exact ⟨text, hline, heq ▸ h⟩

/-! ### Lines -/

theorem visibility?_eq_some {word : List Char} {visibility : Visibility} :
    visibility? word = some visibility ↔ word = (tag visibility).toList := by
  rw [← String.toList_ofList (l := word), String.toList_inj]
  unfold visibility?
  rw [String.toList_ofList]
  dsimp only
  generalize String.ofList word = w
  constructor
  · intro h
    split_ifs at h with h1 h2 h3 <;> cases h <;> assumption
  · rintro rfl
    cases visibility <;> rfl

/-- The words of a line up to the name of the property. -/
theorem exists_words {words : List (List Char)} {visibility : Visibility} {token name : List Char}
    (hvisibility : (words[0]?).bind visibility? = some visibility) (htoken : words[1]? = some token)
    (hname : ((words[2]?).bind (Text.stripStart? "$".toList)).filter (!·.isEmpty) = some name) :
    words = (tag visibility).toList :: token :: ('$' :: name) :: words.drop 3 ∧ name ≠ [] := by
  obtain ⟨first, hfirst, htag⟩ := Option.bind_eq_some_iff.1 hvisibility
  obtain ⟨hbind, hne⟩ := Option.filter_eq_some_iff.1 hname
  obtain ⟨third, hthird, hstrip⟩ := Option.bind_eq_some_iff.1 hbind
  obtain rfl := visibility?_eq_some.1 htag
  obtain rfl : third = '$' :: name := Text.stripStart?_eq_some.1 hstrip
  refine ⟨?_, by simpa using hne⟩
  match words, hfirst, htoken, hthird with
  | _ :: _ :: _ :: _, rfl, rfl, rfl => rfl

/-- A line is read as a property if its words give that property. -/
theorem parseLine_eq_ok {line : List Char} :
    parseLine m known line = .ok p ↔ ∃ token words,
      Text.words line = (tag p.visibility).toList :: token :: ('$' :: p.name.toList) :: words ∧
      p.name ≠ "" ∧ parseType m known token = .ok (p.type, p.nullable, p.isList) ∧
      (∀ flag ∈ flags, flag.2 p = true ↔ flag.1.toList ∈ words) ∧
      (p.paginated = true → p.isToMany = true) := by
  simp only [parseLine, bind_eq_ok, elim_error_eq_ok, Prod.exists, foldl_addFlag]
  constructor
  · rintro ⟨visibility, hvisibility, token, htoken, name, hname, type, nullable, isList, htype, h⟩
    obtain ⟨hwords, hne⟩ := exists_words hvisibility htoken hname
    split_ifs at h with hpaginated
    obtain rfl := pure_eq_ok.1 h
    refine ⟨token, (Text.words line).drop 3, ?_, ?_, htype, fun flag hflag => ?_, ?_⟩
    · change Text.words line =
        (tag visibility).toList :: token :: ('$' :: (String.ofList name).toList) :: _
      rw [String.toList_ofList]
      exact hwords
    · exact fun h => hne (String.ofList_inj.1 h)
    · -- no flag was set before, so those among the words are all that are
      have hset := flags_withFlags_unflagged
        ⟨String.ofList name, type, nullable, isList, visibility, false, false, false, false, false⟩
        (fun flag => decide (flag.toList ∈ (Text.words line).drop 3)) flag hflag
      exact (Bool.eq_iff_iff.1 hset).trans decide_eq_true_iff
    · simpa using hpaginated
  · rintro ⟨token, words, hwords, hname, htype, hflags, hpaginated⟩
    have hstrip : Text.stripStart? "$".toList ('$' :: p.name.toList) = some p.name.toList :=
      Text.stripStart?_eq_some.2 rfl
    have hall : withFlags (unflagged p) (fun flag => decide (flag.toList ∈ words)) = p :=
      withFlags_unflagged fun flag hflag =>
        Bool.eq_iff_iff.2 ((hflags flag hflag).trans decide_eq_true_iff.symm)
    rw [hwords]
    refine ⟨p.visibility, visibility?_eq_some.2 rfl, token, rfl, p.name.toList, ?_, p.type,
      p.nullable, p.isList, htype, ?_⟩
    · exact Option.filter_eq_some_iff.2 ⟨hstrip, by simpa using hname⟩
    · rw [String.ofList_toList]
      change (let q := withFlags (unflagged p) fun flag => decide (flag.toList ∈ words)
        if q.paginated && !q.isToMany then _ else pure q) = _
      rw [hall]
      exact if_neg (by simpa using hpaginated)

theorem annotation_prefix_tag (visibility : Visibility) :
    "@property".toList <+: (tag visibility).toList := by
  cases visibility <;> decide

/-- A written line claims to describe a property, and it is read as that property. -/
theorem parseLine_of_writes (hp : p.WellFormed known) {line : List Char}
    (h : WritesLine m p line) :
    "@property".toList <+: uncomment line ∧ parseLine m known (uncomment line) = .ok p := by
  obtain ⟨text, token, words, hline, hwords, htype, hflags⟩ := h
  have hstart : "@property".toList <+: Text.trim text :=
    (annotation_prefix_tag p.visibility).trans (Text.prefix_of_words_eq_cons hwords)
  rw [uncomment_of_commented hline (List.IsPrefix.trans (by decide) hstart)]
  refine ⟨hstart, parseLine_eq_ok.2 ⟨token, words, ?_, hp.name.1, parseType_of_writes hp htype,
    hflags, hp.paginated⟩⟩
  rw [Text.words_trim, hwords]

/-- What an element that is read can be: canonical blocks can name its model. -/
theorem of_parseElement {element : List Char} {isList : Bool} {type : PropertyType}
    (h : parseElement m known element isList = .ok type) :
    (∀ target, type = .model target → known target = true ∧ (target.Spaced ∨ m.space = "")) ∧
      (type = .untypedArray → isList = false) ∧
      ∀ name, type = .unsupported name → small name.toList ∈ pseudoTypes ∧
        (small name.toList = "array" → isList = true) := by
  rw [parseElement] at h
  split_ifs at h
  split at h
  · cases h
    simp
  · dsimp only at h
    split_ifs at h with harray hpseudo hknown <;> cases h
    · simpa using harray.2
    · refine ⟨by simp, by simp, fun name hname => ?_⟩
      cases hname
      rw [String.toList_ofList]
      exact ⟨hpseudo, fun heq => by simpa using fun hlist => harray ⟨heq, hlist⟩⟩
    · simpa using ⟨hknown, nameable_resolveModel m element⟩

theorem exists_parseElement {line : List Char} (h : parseLine m known line = .ok p) :
    ∃ element, parseElement m known element p.isList = .ok p.type := by
  obtain ⟨token, words, -, -, htype, -, -⟩ := parseLine_eq_ok.1 h
  simp only [parseType, bind_eq_ok, Prod.exists] at htype
  obtain ⟨rest, nullable, -, element, isList, -, type, helement, heq⟩ := htype
  cases heq
  exact ⟨element, helement⟩

/-- A line that is read describes a well-formed property. -/
theorem wellFormed_of_parseLine {line : List Char} (h : parseLine m known line = .ok p)
    (hpath : ∀ target, known target = true → ModelId.IsPath target.path.toList) :
    p.WellFormed known ∧ ∀ target, p.type = .model target → target.Spaced ∨ m.space = "" := by
  obtain ⟨token, words, hwords, hname, -, -, hpaginated⟩ := parseLine_eq_ok.1 h
  obtain ⟨element, helement⟩ := exists_parseElement h
  obtain ⟨hmodel, harray, hunsupported⟩ := of_parseElement helement
  have hsolid : Text.Solid ('$' :: p.name.toList) :=
    (Text.of_mem_words (s := line) (by simp [hwords])).2
  refine ⟨⟨⟨hname, fun c hc => hsolid c (List.mem_cons_of_mem _ hc)⟩, hpaginated,
    fun target htarget => ?_, harray, hunsupported⟩,
    fun target htarget => (hmodel target htarget).2⟩
  have hknown := (hmodel target htarget).1
  exact ⟨hknown, hpath target hknown⟩

end EntityGraph.Annotations
