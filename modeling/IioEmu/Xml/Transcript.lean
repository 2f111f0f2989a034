import IioEmu.Xml.Cost
import IioEmu.Xml.Recorded

/-! # Texts that read as meant

A text may contain strings written as they are. It reads as the tree it is meant for exactly
when these strings need no references: a quotation mark or a reference in one of them makes its
attribute shorter, and what has been read of a document is not taken back. -/

namespace IioEmu.Xml

/-! ## Strings written as they are -/

def IsRaw (c : Char) : Prop := isChar c = true ∧ (isWhite c = true → c = ' ')

instance (c : Char) : Decidable (IsRaw c) := inferInstanceAs (Decidable (_ ∧ _))

theorem run_value_short (state : State) (tag : XmlElement) (name rest : List Char)
    {final : State} (source : List Char) :
    (∀ text, run (state.become (.value tag name '"' text))
      (source ++ '"' :: rest) = some final →
      ∃ read more, read.length ≤ source.length ∧
        run (state.become (.value tag name '"' (text ++ read)))
          ('"' :: more) = some final) ∧
    (∀ text reference, run (state.become (.valueReference tag name '"' text reference))
        (source ++ '"' :: rest) = some final →
      ∃ read more, read.length ≤ source.length ∧
        run (state.become (.value tag name '"' (text ++ read)))
          ('"' :: more) = some final) := by
  induction source with
  | nil =>
      constructor
      · intro text ran
        exact ⟨[], rest, Nat.le_refl _, by simpa using ran⟩
      · intro text reference ran
        have refused :
            step (state.become (.valueReference tag name '"' text reference)) '"' =
            none := rfl
        rw [List.nil_append, run_cons, refused] at ran
        cases ran
  | cons c source induction =>
      have grown {text : List Char} {char : Char} (ran : run
          (state.become (.value tag name '"' (text ++ [char]))) (source ++ '"' :: rest) =
            some final) :
          ∃ read more, read.length ≤ (c :: source).length ∧
            run (state.become (.value tag name '"' (text ++ read))) ('"' :: more) =
              some final := by
        rcases induction.1 _ ran with ⟨read, more, short, ended⟩
        refine ⟨char :: read, more, Nat.succ_le_succ short, ?_⟩
        rwa [List.append_assoc] at ended
      have referred {text reference : List Char} (ran : run
          (state.become (.valueReference tag name '"' text reference))
            (source ++ '"' :: rest) = some final) :
          ∃ read more, read.length ≤ (c :: source).length ∧
            run (state.become (.value tag name '"' (text ++ read))) ('"' :: more) =
              some final := by
        rcases induction.2 _ _ ran with ⟨read, more, short, ended⟩
        exact ⟨read, more, Nat.le_succ_of_le short, ended⟩
      constructor
      · intro text ran
        by_cases quote : c = '"'
        · subst quote
          exact ⟨[], source ++ '"' :: rest, Nat.zero_le _, by simpa using ran⟩
        · rw [List.cons_append, run_cons, Option.bind_eq_some_iff] at ran
          rcases ran with ⟨next, stepped, ran⟩
          simp only [step, State.mode_become, Option.ite_none_left_eq_some,
            if_neg quote] at stepped
          replace stepped := stepped.2.2
          split at stepped
          · cases stepped
            exact referred ran
          · cases stepped
            exact grown ran
      · intro text reference ran
        rw [List.cons_append, run_cons, Option.bind_eq_some_iff] at ran
        rcases ran with ⟨next, stepped, ran⟩
        simp only [step, State.mode_become, Option.ite_none_left_eq_some] at stepped
        replace stepped := stepped.2
        split at stepped
        · rw [Option.map_eq_some_iff] at stepped
          rcases stepped with ⟨char, _, rfl⟩
          exact grown ran
        · simp only [Option.ite_none_right_eq_some] at stepped
          cases stepped.2
          exact referred ran

/-- A string that is not plain is read as a shorter one, or not at all. -/
theorem run_value_raw (state : State) (tag : XmlElement)
    (name rest : List Char) {final : State} {source : List Char}
    (raw : ∀ c ∈ source, IsRaw c) (text : List Char)
    (ran : run (state.become (.value tag name '"' text))
      (source ++ '"' :: rest) = some final) :
    (∀ c ∈ source, IsPlain c) ∨ ∃ read more, read.length < source.length ∧
      run (state.become (.value tag name '"' (text ++ read)))
        ('"' :: more) = some final := by
  induction source generalizing text with
  | nil => simp
  | cons c source induction =>
      have isRaw := raw c (by simp)
      by_cases plain : IsPlain c
      · rw [List.cons_append,
          run_cons_of_some (step_value_plain state tag name text plain)] at ran
        rcases induction (fun other member => raw other (by simp [member])) _ ran with
          others | ⟨read, more, short, ended⟩
        · exact Or.inl (List.forall_mem_cons.mpr ⟨plain, others⟩)
        · refine Or.inr ⟨c :: read, more, Nat.succ_lt_succ short, ?_⟩
          rwa [List.append_assoc] at ended
      · apply Or.inr
        by_cases quote : c = '"'
        · subst quote
          exact ⟨[], source ++ '"' :: rest, Nat.zero_lt_succ _, by simpa using ran⟩
        · rw [List.cons_append, run_cons, Option.bind_eq_some_iff] at ran
          rcases ran with ⟨next, stepped, ran⟩
          simp only [step, State.mode_become, Option.ite_none_left_eq_some,
            if_neg quote] at stepped
          have reference : c = '&' := by
            by_contra different
            exact plain ⟨isRaw.1, quote, stepped.2.1, different, isRaw.2⟩
          rw [if_pos reference, Option.some.injEq] at stepped
          rw [← stepped.2.2, State.become_become] at ran
          rcases (run_value_short state tag name rest source).2 _ _ ran with
            ⟨read, more, short, ended⟩
          exact ⟨read, more, Nat.lt_succ_of_le short, ended⟩

/-! ## Attributes -/

/-- What stands between the quotes spells the value when it is clean, and otherwise is read as
another value, if at all. -/
structure Honest (spelling : Spelling) (Clean : Prop) : Prop where
  named : IsName spelling.property.name.toList
  free : '\r' ∉ spelling.literal
  fair : spelling.Fair
  spells : Clean → Spells spelling.literal spelling.property.value.toList
  told : ∀ (state : State) (tag : XmlElement) (name rest : List Char) (final : State),
    run (state.become (.value tag name '"' []))
      (spelling.literal ++ '"' :: rest) = some final →
      Clean ∨ ∃ read more, read ≠ spelling.property.value.toList ∧
        run (state.become (.value tag name '"' read)) ('"' :: more) = some final

theorem honest_raw {property : XmlAttribute} (named : IsName property.name.toList)
    (raw : ∀ c ∈ property.value.toList, IsRaw c) :
    Honest ⟨property,
      property.value.toList⟩ (∀ c ∈ property.value.toList, IsPlain c) where
  named := named
  free member := absurd ((raw '\r' member).2 rfl) (by decide)
  fair := by
    rw [Spelling.Fair, ← String.length_toList]
    exact spends_length _
  spells := spells_self
  told state tag name rest final ran := by
    rcases run_value_raw state tag name rest raw [] ran with
      plain | ⟨read, more, short, ended⟩
    · exact Or.inl plain
    · refine Or.inr ⟨read, more, ?_, ended⟩
      intro same
      rw [same] at short
      exact Nat.lt_irrefl _ short

theorem honest_of_spells {spelling : Spelling} (faithful : spelling.Faithful)
    (free : '\r' ∉ spelling.literal) (fair : spelling.Fair) : Honest spelling True where
  named := faithful.named
  free := free
  fair := fair
  spells _ := faithful.spells
  told _ _ _ _ _ _ := Or.inl trivial

/-! ## What comes out in the end -/

def Yields (state : State) (text : List Char) (attributes : List XmlAttribute) : Prop :=
  ∃ final tree, run state text = some final ∧ finish final = some tree ∧
    properties tree = attributes

section Yields

variable {state : State} {attributes : List XmlAttribute}

theorem Yields.recorded {recorded : List XmlAttribute} {text : List Char}
    (yields : Yields state text attributes) (kept : Recorded recorded state) :
    recorded <+: attributes := by
  rcases yields with ⟨final, tree, ran, finished, rfl⟩
  exact (kept.run ran).finish finished

theorem Yields.after {middle : State} {first second : List Char}
    (yields : Yields state (first ++ second) attributes)
    (read : run state first = some middle) :
    Yields middle second attributes := by
  rcases yields with ⟨final, tree, ran, finished, same⟩
  rw [run_append_of_some read] at ran
  exact ⟨final, tree, ran, finished, same⟩

theorem Yields.afterCons {next : State} {c : Char} {text : List Char}
    (yields : Yields state (c :: text) attributes) (stepped : step state c = some next) :
    Yields next text attributes := by
  rcases yields with ⟨final, tree, ran, finished, same⟩
  rw [run_cons_of_some stepped] at ran
  exact ⟨final, tree, ran, finished, same⟩

end Yields

/-! ## Tags -/

section Tags

variable {frames : List Frame} {mode : Mode} {tag : XmlElement} (inside : InTag mode tag)

include inside

theorem clean_of_yields_spelling {spelling : Spelling} {Clean : Prop}
    (honest : Honest spelling Clean) {rest : List Char} {later : List XmlAttribute}
    (yields : Yields ⟨frames, none, mode⟩ (spelling.text ++ rest)
      (frameProperties frames ++ (tag.properties ++ spelling.property :: later))) :
      Clean := by
  let name := spelling.property.name.toList
  have opened := run_opening inside ⟨frames, none, mode⟩ honest.named
  have parts : spelling.text ++ rest =
      (' ' :: name ++ ['=', '"']) ++ (spelling.literal ++ '"' :: rest) := by
    simp [Spelling.text, name]
  rw [parts] at yields
  have atValue := yields.after opened
  rcases atValue with ⟨final, tree, ran, finished, same⟩
  rcases honest.told _ _ _ _ _ ran with clean | ⟨read, more, different, ran⟩
  · exact clean
  · rw [run_cons, Option.bind_eq_some_iff] at ran
    rcases ran with ⟨next, stepped, ran⟩
    have ended :
        (State.mk frames none mode).become (.afterValue (withProperty tag name read)) =
        next := by
      simp only [step, State.mode_become, Option.ite_none_left_eq_some, if_true,
        State.endValue, Option.some.injEq] at stepped
      exact stepped.2.2
    have recorded : Recorded (frameProperties frames ++
        (tag.properties ++ [⟨spelling.property.name, String.ofList read⟩])) next := by
      rw [← ended]
      apply Recorded.opened
      · exact False.elim
      · simp [tagProperties, withProperty, name]
    have begins := Yields.recorded ⟨final, tree, ran, finished, same⟩ recorded
    rw [List.prefix_append_right_inj, List.prefix_append_right_inj] at begins
    rcases begins with ⟨others, equal⟩
    injection equal with equal
    exact absurd (by rw [← equal]; simp) different

theorem clean_of_yields_spellings {spellings : List Spelling} {Clean : Spelling → Prop}
    (honest : ∀ spelling ∈ spellings, Honest spelling (Clean spelling))
    (distinct : ((tag.properties ++ spellings.map Spelling.property).map
      XmlAttribute.name).Nodup)
    {rest : List Char} {later : List XmlAttribute}
    (yields : Yields ⟨frames, none, mode⟩ (spellings.flatMap Spelling.text ++ rest)
      (frameProperties frames ++
        (tag.properties ++ (spellings.map Spelling.property ++ later)))) :
    ∀ spelling ∈ spellings, Clean spelling := by
  induction spellings generalizing mode tag with
  | nil => simp
  | cons spelling spellings induction =>
      have fresh := fresh_of_nodup distinct
      have own := honest spelling (by simp)
      rw [List.flatMap_cons, List.append_assoc] at yields
      have clean := clean_of_yields_spelling inside own yields
      have read := run_spelling inside ⟨frames, none, mode⟩ ⟨own.named,
        own.spells clean⟩ fresh
      have others := induction (InTag.afterValue
          { tag with properties := tag.properties ++ [spelling.property] })
        (fun other member => honest other (by simp [member])) (by simpa using distinct)
        (by simpa [State.become] using yields.after read)
      exact List.forall_mem_cons.mpr ⟨clean, others⟩

end Tags

structure HonestTag (tag : Tag) (Clean : Spelling → Prop) : Prop where
  named : IsName tag.name.toList
  notText : tag.name ≠ "text"
  honest : ∀ spelling ∈ tag.spellings, Honest spelling (Clean spelling)
  distinct : (tag.element.properties.map XmlAttribute.name).Nodup

namespace HonestTag

variable {tag : Tag} {Clean : Spelling → Prop} (honestTag : HonestTag tag Clean)

include honestTag

theorem faithful (clean : ∀ spelling ∈ tag.spellings, Clean spelling) : tag.Faithful where
  named := honestTag.named
  faithful spelling member :=
    have honest := honestTag.honest spelling member
    ⟨honest.named, honest.spells (clean spelling member)⟩
  distinct := honestTag.distinct

theorem free : '\r' ∉ tag.text := by
  rw [Tag.text, List.mem_append, List.mem_flatMap]
  rintro (inName | ⟨spelling, member, inSpelling⟩)
  · exact return_not_mem_of_isName honestTag.named inName
  · have honest := honestTag.honest spelling member
    have notInName := return_not_mem_of_isName honest.named
    simp [Spelling.text, notInName, honest.free] at inSpelling

theorem clean {frames : List Frame} {rest : List Char} {later : List XmlAttribute}
    (yields : Yields ⟨frames, none, .markup⟩ (tag.text ++ rest)
      (frameProperties frames ++ (tag.element.properties ++ later))) :
    ∀ spelling ∈ tag.spellings, Clean spelling := by
  have opened : (State.mk frames none .markup).Open := Or.inr rfl
  have named := run_tagName honestTag.named opened
  rw [Tag.text, List.append_assoc] at yields
  exact clean_of_yields_spellings (InTag.startName tag.name.toList) honestTag.honest
    honestTag.distinct (yields.after named)

end HonestTag

/-! ## Elements and content -/

structure TranscribesElement (text : List Char) (node : XmlNode)
    (Clean : Prop) : Prop where
  free : '\r' ∉ text
  notText : node.label.name ≠ "text"
  pays : Pays ('<' :: text) [node]
  reads : Clean → ReadsElement text node
  clean : ∀ (frames : List Frame) (rest : List Char) (later : List XmlAttribute),
    Yields ⟨frames, none, .markup⟩ (text ++ rest)
      (frameProperties frames ++ (properties node ++ later)) → Clean

/-- The text reads as the elements exactly when it is clean, wherever it stands. -/
structure Transcribes (text : List Char) (nodes : List XmlNode)
    (Clean : Prop) : Prop where
  free : '\r' ∉ text
  pays : Pays text nodes
  elements : ∀ node ∈ nodes, node.label.name ≠ "text"
  reads : Clean → Reads text nodes
  clean : ∀ (element : XmlElement) (frames : List Frame) (gathered : Gathered)
    (rest : List Char) (later : List XmlAttribute),
    Yields (inside none element frames gathered) (text ++ rest)
      (frameProperties (⟨element, gathered.children⟩ :: frames) ++
        (forestProperties nodes ++ later)) → Clean

theorem forestProperties_settled (gathered : Gathered) :
    forestProperties gathered.settled = forestProperties gathered.children := by
  rw [Gathered.settled]
  split
  · rfl
  · rw [forestProperties_append]
    simp [textNode]

theorem forestProperties_gathered {nodes : List XmlNode}
    (elements : ∀ node ∈ nodes, node.label.name ≠ "text") (gathered : Gathered) :
    forestProperties (nodes.foldl Gathered.take gathered).children =
      forestProperties gathered.children ++ forestProperties nodes := by
  induction nodes generalizing gathered with
  | nil => simp
  | cons node nodes induction =>
      have rest := induction (fun other member => elements other (by simp [member]))
        ⟨gathered.settled ++ [node], []⟩
      rw [List.foldl_cons, Gathered.take, if_neg (elements node (by simp)), rest,
        forestProperties_append, forestProperties_settled, forestProperties_singleton,
        List.append_assoc, ← forestProperties_cons]

theorem settled_gathered {nodes : List XmlNode}
    (elements : ∀ node ∈ nodes, node.label.name ≠ "text") (children : List XmlNode) :
    (nodes.foldl Gathered.take ⟨children, []⟩).settled = children ++ nodes := by
  induction nodes generalizing children with
  | nil => simp [Gathered.settled]
  | cons node nodes induction =>
      have rest := induction (fun other member => elements other (by simp [member]))
        (children ++ [node])
      rw [List.foldl_cons, Gathered.take, if_neg (elements node (by simp))]
      simpa [Gathered.settled] using rest

theorem transcribes_nil : Transcribes [] [] True where
  free := List.not_mem_nil
  pays := pays_nil
  elements := by simp
  reads _ := reads_nil
  clean _ _ _ _ _ _ := trivial

theorem Transcribes.append {first second : List Char} {nodes others : List XmlNode}
    {Clean Cleans : Prop} (transcribes : Transcribes first nodes Clean)
    (next : Transcribes second others Cleans) :
    Transcribes (first ++ second) (nodes ++ others) (Clean ∧ Cleans) where
  free := by
    rw [List.mem_append]
    exact not_or.mpr ⟨transcribes.free, next.free⟩
  pays := transcribes.pays.append next.pays
  elements := List.forall_mem_append.mpr ⟨transcribes.elements, next.elements⟩
  reads clean := reads_append (transcribes.reads clean.1) (next.reads clean.2)
  clean element frames gathered rest later yields := by
    rw [List.append_assoc, forestProperties_append, List.append_assoc] at yields
    have clean := transcribes.clean element frames gathered _ _ yields
    apply And.intro clean
    have read := transcribes.reads clean none element frames gathered
    apply next.clean element frames (nodes.foldl Gathered.take gathered) rest later
    rw [frameProperties, forestProperties_gathered transcribes.elements]
    simpa [frameProperties] using yields.after read

theorem transcribes_flatMap {Item : Type} {items : List Item} {text : Item → List Char}
    {node : Item → XmlNode} {Clean : Item → Prop}
    (each : ∀ item ∈ items, Transcribes (text item) [node item] (Clean item)) :
    Transcribes (items.flatMap text) (items.map node) (∀ item ∈ items, Clean item) := by
  induction items with
  | nil => simpa using transcribes_nil
  | cons item items induction =>
      have first := each item (by simp)
      have rest := induction fun other member => each other (by simp [member])
      simpa using first.append rest

theorem transcribes_element {text : List Char} {node : XmlNode} {Clean : Prop}
    (transcribes : TranscribesElement text node Clean) :
    Transcribes ('<' :: text) [node] Clean where
  free := by simpa using transcribes.free
  pays := transcribes.pays
  elements := by simpa using transcribes.notText
  reads clean := reads_element (transcribes.reads clean) transcribes.notText
  clean element frames gathered rest later yields := by
    apply transcribes.clean (⟨element, gathered.settled⟩ :: frames) rest later
    rw [frameProperties, forestProperties_settled]
    rw [forestProperties_singleton] at yields
    exact yields.afterCons (step_inside_markup none element frames gathered)

section Elements

variable {tag : Tag} {Clean : Spelling → Prop} (honestTag : HonestTag tag Clean)

include honestTag

theorem transcribesElement_empty :
    TranscribesElement (tag.text ++ [' '] ++ ['/', '>']) (.node tag.element [])
      (∀ spelling ∈ tag.spellings, Clean spelling) where
  free := by simp [honestTag.free]
  notText := honestTag.notText
  pays := pays_empty honestTag.notText fun spelling member =>
    (honestTag.honest spelling member).fair
  reads clean := readsElement_empty (honestTag.faithful clean) [' '] (by decide)
  clean frames rest later yields := by
    rw [List.append_assoc, List.append_assoc] at yields
    exact honestTag.clean (by simpa using yields)

theorem transcribesElement_content {text : List Char}
    {nodes : List XmlNode} {Cleans : Prop} (content : Transcribes text nodes Cleans) :
    TranscribesElement
      (tag.text ++ [' '] ++ '>' :: text ++ '<' :: '/' :: tag.name.toList ++ ['>'])
      (.node tag.element nodes) ((∀ spelling ∈ tag.spellings,
      Clean spelling) ∧ Cleans) where
  free := by
    have notInName := return_not_mem_of_isName honestTag.named
    simp [honestTag.free, content.free, notInName]
  notText := honestTag.notText
  pays := by
    have noTag : '<' ∉ tag.name.toList := fun member =>
      ne_of_isNameChar (honestTag.named.named _ member) (by decide) rfl
    exact pays_content honestTag.notText
      (fun spelling member => (honestTag.honest spelling member).fair) noTag content.pays
  reads clean := by
    have reads := readsElement_content (honestTag.faithful clean.1) [' '] (by decide)
      (content.reads clean.2)
    rw [Gathered.none, settled_gathered content.elements] at reads
    simpa using reads
  clean frames rest later yields := by
    let ending := '<' :: '/' :: tag.name.toList ++ ['>'] ++ rest
    have parts : tag.text ++ [' '] ++ '>' :: text ++ '<' :: '/' :: tag.name.toList ++ ['>'] ++
        rest = tag.text ++ ([' '] ++ '>' :: (text ++ ending)) := by
      simp [ending]
    have whole : tag.text ++ ([' '] ++ '>' :: (text ++ ending)) =
        (tag.text ++ [' '] ++ ['>']) ++ (text ++ ending) := by
      simp
    rw [parts, properties_node, List.append_assoc tag.element.properties] at yields
    have clean := honestTag.clean yields
    apply And.intro clean
    have opened : (State.mk frames none .markup).Open := Or.inr rfl
    have white : ∀ c ∈ [' '], isWhite c = true := by decide
    rw [whole] at yields
    have started := yields.after (run_startTag (honestTag.faithful clean) white opened)
    apply content.clean tag.element frames .none _ later
    simpa [frameProperties, Gathered.none] using started

end Elements

/-! ## Whole documents -/

section Documents

variable {prolog text : List Char} {tree : XmlNode} {Clean : Prop}
  (isProlog : IsProlog prolog)
  (freeProlog : '\r' ∉ prolog) (transcribes : TranscribesElement text tree Clean)

include isProlog freeProlog transcribes

theorem parse_of_clean (clean : Clean) : parse (prolog ++ '<' :: text) = some tree := by
  have free : '\r' ∉ prolog ++ '<' :: text := by simp [freeProlog, transcribes.free]
  have read := parse_document isProlog (transcribes.reads clean) [] (by simp)
    (by simpa using free)
  simpa using read

/-- What comes out never costs more. -/
theorem cost_le_of_transcribes {other : XmlNode}
    (parsed : parse (prolog ++ '<' :: text) = some other) : cost other ≤ cost tree := by
  have free : '\r' ∉ prolog ++ '<' :: text := by simp [freeProlog, transcribes.free]
  exact cost_le_of_parse isProlog free transcribes.pays parsed

/-- A document is clean when the strings read from it are the ones meant. -/
theorem clean_of_parse {other : XmlNode}
    (parsed : parse (prolog ++ '<' :: text) = some other)
    (same : properties other = properties tree) : Clean := by
  have free : '\r' ∉ prolog ++ '<' :: text := by simp [freeProlog, transcribes.free]
  rw [parse, normalizeLineEnds_of_free free, run_append_of_some isProlog,
    Option.bind_eq_some_iff] at parsed
  rcases parsed with ⟨final, ran, finished⟩
  have opened : step start '<' = some (start.become .markup) := rfl
  rw [run_cons_of_some opened] at ran
  apply transcribes.clean [] [] []
  refine ⟨final, other, ?_, finished, ?_⟩
  · simpa [start, State.become] using ran
  · simpa [frameProperties] using same

end Documents

end IioEmu.Xml
