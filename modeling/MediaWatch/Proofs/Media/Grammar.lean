import MediaWatch.Proofs.Media.Reading

/-! # The grammar of descriptors

A well-formed descriptor is a list of items with commas between them. An item is made of media types and of features in
parentheses, with `and` between them, and has at most one keyword in front. What such a descriptor comes to is read off
its items, and what an item comes to is read off its parts.
-/

namespace MediaWatch.Media

/-- The name of a media type, which is no keyword. -/
structure IsTypeName (t : Text) : Prop where
  some : t ≠ []
  characters : ∀ c ∈ t, isTypeChar c
  free : ∀ k ∈ ["and".toList, "or".toList, "not".toList, "only".toList], ¬ Text.sameAsciiLetters t k

/-- A named feature in parentheses, in which nothing is that divides a descriptor. -/
structure IsFeature (t : Text) : Prop where
  enclosed : ∃ inner, t = '(' :: (inner ++ [')'])
  named : Part.ofText t ≠ .invalid
  commaless : ',' ∉ t
  plain : ∀ w ∈ Text.words t, ¬ Text.sameAsciiLetters w "and".toList

/-- A part as it is written. -/
structure PartText where
  text : Text
  form : IsTypeName text ∨ IsFeature text

/-- A keyword in front of an item, in any ASCII case, with a space and any further blanks behind it. -/
structure Lead where
  negates : Bool
  word : Text
  blanks : Text
  same : Text.sameAsciiLetters word (if negates then "not".toList else "only".toList)
  blank : ∀ c ∈ blanks, Text.isBlank c

/-- An item as it is written: parts with `and` between them, and perhaps a keyword in front. -/
structure ItemText where
  lead : Option Lead
  parts : Woven PartText
  between : ∀ s ∈ parts.separators, Text.IsSpaced "and".toList s

/-- A descriptor as it is written: items with commas between them, and blanks on the outside. -/
structure DescriptorText where
  items : Woven ItemText
  between : ∀ s ∈ items.separators, Text.IsComma s
  left : Text
  right : Text
  blankLeft : ∀ c ∈ left, Text.isBlank c
  blankRight : ∀ c ∈ right, Text.isBlank c

def plainNot : Lead := ⟨true, "not".toList, [], by decide, nofun⟩

/-- The text of a keyword and of what separates it from the parts. -/
def Lead.text (l : Lead) : Text := l.word ++ ' ' :: l.blanks

namespace ItemText

def body (i : ItemText) : Text := i.parts.write PartText.text

def text (i : ItemText) : Text :=
  match i.lead with
  | some l => l.text ++ i.body
  | none => i.body

/-- Whether an item says the opposite of its parts. -/
def negated (i : ItemText) : Bool := i.lead.any (·.negates)

def holds (f : Features) (i : ItemText) : Bool :=
  (i.parts.items.all fun p => (Part.ofText (Text.lowerAscii p.text)).holds f) != i.negated

end ItemText

def DescriptorText.text (d : DescriptorText) : Text := d.left ++ d.items.write ItemText.text ++ d.right

variable {c : Char} {t u x : Text}

/-! ## Parts -/

/-- What can stand in the name of a media type is neither blank nor a comma. -/
theorem solid_of_isTypeChar (char : isTypeChar c) : Text.isBlank c = false ∧ c ≠ ',' := by
  simp only [isTypeChar, Bool.or_eq_true, decide_eq_true_eq] at char
  rcases char with alphanumeric | rfl
  · exact Text.solid_of_isAlphanum alphanumeric
  · decide

/-- A keyword that an item can start with has neither blanks nor parentheses in it. -/
theorem letters_of_keyword {k : Text} (keyword : k ∈ ["not".toList, "only".toList]) :
    Text.IsKeyword k ∧ '(' ∉ Text.lowerAscii k := by
  rcases List.mem_pair.mp keyword with rfl | rfl
  · exact ⟨Text.isKeyword_not, by decide⟩
  · exact ⟨Text.isKeyword_only, by decide⟩

/-- What is opened by a parenthesis does not start with a keyword. -/
theorem not_keyword_of_opened {k : Text} (split : '(' :: t = x ++ u) (keyword : k ∈ ["not".toList, "only".toList]) :
    ¬ Text.sameAsciiLetters x k := by
  intro same
  have letters := letters_of_keyword keyword
  obtain ⟨c, rest, rfl⟩ := List.exists_cons_of_ne_nil (letters.1.some_of_same same)
  obtain rfl : '(' = c := (List.cons.inj split).1
  exact letters.2 (Text.toLower_mem_of_sameAsciiLetters same List.mem_cons_self)

namespace PartText

variable (p : PartText)

theorem closed : Text.Closed p.text := by
  rcases p.form with name | feature
  · refine ⟨name.some, fun c head => ?_, fun c last => ?_⟩
    · exact (solid_of_isTypeChar (name.characters c (List.mem_of_mem_head? head))).1
    · exact (solid_of_isTypeChar (name.characters c (List.mem_of_mem_getLast? last))).1
  · obtain ⟨inner, enclosed⟩ := feature.enclosed
    rw [enclosed, ← List.cons_append]
    refine ⟨by simp, ?_, ?_⟩
    · rintro c ⟨⟩
      decide
    · simp only [List.getLast?_concat, Option.mem_def, Option.some.injEq]
      rintro c rfl
      decide

theorem commaless : ',' ∉ p.text := by
  rcases p.form with name | feature
  · exact fun mem => (solid_of_isTypeChar (name.characters _ mem)).2 rfl
  · exact feature.commaless

theorem plain : ∀ w ∈ Text.words p.text, ¬ Text.sameAsciiLetters w "and".toList := by
  rcases p.form with name | feature
  · rw [Text.words_of_solid (fun c mem => (solid_of_isTypeChar (name.characters c mem)).1) name.some]
    intro w mem
    obtain rfl := List.mem_singleton.mp mem
    exact name.free _ (by decide)
  · exact feature.plain

/-- A part does not start with a keyword that an item can start with. -/
theorem front {tail x u k : Text} (stops : Text.Stops tail) (split : p.text ++ tail = x ++ u) (stopsRest : Text.Stops u)
    (keyword : k ∈ ["not".toList, "only".toList]) : ¬ Text.sameAsciiLetters x k := by
  intro same
  have letters := letters_of_keyword keyword
  have solid := letters.1.solid_of_same same
  rcases p.form with name | feature
  · have whole := Text.eq_of_stops (fun c mem => solid_of_isTypeChar (name.characters c mem)) stops
      solid stopsRest split
    rw [← whole] at same
    exact name.free k (by simp_all) same
  · obtain ⟨inner, enclosed⟩ := feature.enclosed
    rw [enclosed] at split
    exact not_keyword_of_opened split keyword same

end PartText

/-! ## Items -/

theorem Lead.solid (l : Lead) : l.word ≠ [] ∧ ∀ c ∈ l.word, Text.isBlank c = false ∧ c ≠ ',' := by
  obtain ⟨k, keyword, same⟩ : ∃ k, Text.IsKeyword k ∧ Text.sameAsciiLetters l.word k := by
    obtain ⟨_ | _, word, blanks, same, blank⟩ := l
    · exact ⟨_, Text.isKeyword_only, same⟩
    · exact ⟨_, Text.isKeyword_not, same⟩
  exact ⟨keyword.some_of_same same, keyword.solid_of_same same⟩

/-- A keyword that stands in front of a text is the one that is put there. -/
theorem Lead.eq_word (l : Lead) {k : Text} (keyword : Text.IsKeyword k) (same : Text.sameAsciiLetters x k)
    (stops : Text.Stops u) (split : l.text ++ t = x ++ u) : l.word = x := by
  rw [Lead.text, List.append_assoc] at split
  refine Text.eq_of_stops l.solid.2 ?_ (keyword.solid_of_same same) stops split
  rintro c ⟨⟩
  exact .inl (by decide)

theorem Lead.closed (l : Lead) (closed : Text.Closed t) : Text.Closed (l.text ++ t) := by
  obtain ⟨some, solid⟩ := l.solid
  refine ⟨List.append_ne_nil_of_right_ne_nil _ closed.some, fun c head => ?_, fun c last => ?_⟩
  · rw [Lead.text, List.append_assoc, List.head?_append_of_ne_nil _ some] at head
    exact (solid c (List.mem_of_mem_head? head)).1
  · rw [List.getLast?_append_of_ne_nil _ closed.some] at last
    exact closed.ends c last

/-- A keyword is taken off the front of an item. -/
theorem keyword_lead (l : Lead) (closed : Text.Closed t) :
    Query.keyword (Text.lowerAscii (l.text ++ t)) = (l.negates, Text.lowerAscii t) := by
  obtain ⟨negates, word, blanks, same, blank⟩ := l
  have letters : Text.lowerAscii word = if negates then "not".toList else "only".toList := by
    cases negates <;> exact beq_iff_eq.mp same
  have trimmed : (Text.lowerAscii (blanks ++ t)).trimStart = Text.lowerAscii t := by
    rw [Text.trimStart, Text.dropWhile_lowerAscii]
    exact congrArg Text.lowerAscii (Text.trimStart_append blank closed.starts)
  have split : Text.lowerAscii (Lead.text ⟨negates, word, blanks, same, blank⟩ ++ t) =
      Text.lowerAscii word ++ ' ' :: Text.lowerAscii (blanks ++ t) := by
    simp [Lead.text, Text.lowerAscii]
  rw [split, letters]
  cases negates with
  | true => exact congrArg (Prod.mk true) trimmed
  | false => exact congrArg (Prod.mk false) trimmed

/-- An item with a keyword in front says what its parts say, or the opposite. -/
theorem holds_lead (f : Features) (l : Lead) (closed : Text.Closed t) :
    (Query.ofText (l.text ++ t)).holds f =
      (((Text.cut Text.andWord t).all fun part => (Part.ofText (Text.lowerAscii part)).holds f) != l.negates) := by
  have some : Text.lowerAscii t ≠ [] := by simpa [Text.lowerAscii] using closed.some
  rw [Query.ofText, Text.trim_closed (l.closed closed), keyword_lead l closed]
  simp only [Query.holds, List.isEmpty_eq_false_iff.mpr some, Bool.false_eq_true, ↓reduceIte]
  rw [Text.andWord, Text.cut_spaced_lowerAscii]
  simp only [List.map_map, List.all_map, Function.comp_def]

namespace ItemText

variable (i : ItemText)

theorem closed_body : Text.Closed i.body := Text.closed_write fun p _ => p.closed

private theorem commaless_body : ',' ∉ i.body :=
  Text.commaless_write Text.isKeyword_and (fun p _ => p.commaless) i.between

theorem takes (s : Text) (mem : s ∈ i.parts.separators) : Text.andWord.Takes s :=
  Text.takes_spaced Text.isKeyword_and (i.between s mem)

/-- An item without its keyword is cut into its parts. -/
theorem cut_body : Text.cut Text.andWord i.body = i.parts.items.map PartText.text :=
  Text.cut_write (fun p _ => p.closed) (fun p _ => Text.passes_spaced Text.isKeyword_and p.closed p.plain) i.takes

/-- An item without its keyword does not start with another. -/
theorem isBare_body : IsBare i.body :=
  isBare_of_front fun _ _ split stops _ keyword => i.parts.first.front (Text.stops_rest i.takes) split stops keyword

theorem closed_text : Text.Closed i.text := by
  rw [text]
  split
  · next l _ => exact l.closed i.closed_body
  · exact i.closed_body

private theorem commaless_text : ',' ∉ i.text := by
  rw [text]
  split
  · next l _ =>
    intro mem
    rcases List.mem_append.mp mem with mem | mem
    · rcases List.mem_append.mp mem with mem | mem
      · exact (l.solid.2 _ mem).2 rfl
      · rcases List.mem_cons.mp mem with same | mem
        · exact absurd same (by decide)
        · exact absurd (l.blank _ mem) (by decide)
    · exact i.commaless_body mem
  · exact i.commaless_body

/-- What an item comes to can be read off its parts. -/
theorem holds_text (f : Features) : (Query.ofText i.text).holds f = i.holds f := by
  have parts : ((Text.cut Text.andWord i.body).all fun part => (Part.ofText (Text.lowerAscii part)).holds f) =
      i.parts.items.all fun p => (Part.ofText (Text.lowerAscii p.text)).holds f := by
    rw [cut_body, List.all_map]
    rfl
  rw [holds, ← parts, negated, text]
  split
  · next l lead =>
    rw [lead]
    exact holds_lead f l i.closed_body
  · next lead =>
    rw [lead, Option.any_none, Bool.bne_false]
    exact holds_parts f i.isBare_body i.closed_body

end ItemText

/-! ## Lists -/

namespace DescriptorText

variable (d : DescriptorText)

theorem trim_text : d.text.trim = d.items.write ItemText.text :=
  Text.trim_append d.blankLeft d.blankRight (Text.closed_write fun i _ => i.closed_text)

/-- A descriptor holds whenever one of its items does. -/
theorem satisfy_text (f : Features) : f.satisfy d.text = d.items.items.any (ItemText.holds f) := by
  have some : d.text.trim ≠ [] := by
    rw [trim_text]
    exact Text.write_ne_nil fun i _ => i.closed_text
  have items : Text.cut Text.comma d.text.trim = d.items.items.map ItemText.text := by
    rw [trim_text]
    exact Text.cut_write (fun i _ => i.closed_text) (fun i _ => Text.passes_comma i.closed_text i.commaless_text)
      fun s mem => Text.takes_comma (d.between s mem)
  rw [satisfy_eq f some, items]
  simp only [List.any_map, Function.comp_def, ItemText.holds_text]

end DescriptorText

/-- Parts by themselves hold together. -/
theorem satisfy_parts (f : Features) (parts : Woven PartText)
    (between : ∀ s ∈ parts.separators, Text.IsSpaced "and".toList s) :
    f.satisfy (parts.write PartText.text) =
      parts.items.all fun p => (Part.ofText (Text.lowerAscii p.text)).holds f := by
  let d : DescriptorText :=
    ⟨⟨⟨none, parts, between⟩, []⟩, List.forall_mem_nil _, [], [], List.forall_mem_nil _, List.forall_mem_nil _⟩
  have written : d.text = parts.write PartText.text := by
    rw [DescriptorText.text, Woven.write, List.flatMap_nil, List.append_nil, List.append_nil]
    rfl
  rw [← written, DescriptorText.satisfy_text]
  exact (Bool.or_false _).trans (Bool.bne_false _)

end MediaWatch.Media
