import EventDeck.Command
import EventDeck.Proofs.Decimal.Readback
import EventDeck.Proofs.Expr.Cells
import EventDeck.Proofs.Expr.Words
import EventDeck.Proofs.Text.Padded

/-!
# Reading commands back

A command can be written in many ways: its word in small or capital letters, with blanks around
every part, as a call or with a colon.  `Spells` is the grammar of these texts, without any mention
of how they are taken apart, and `parse_eq_ok_iff` says that a text is read as a command exactly when
it spells it.

A call is taken apart from the outside: the blanks at its ends, the word, the blanks behind it, the
parentheses, and the commas between them.  Each of these steps is an equation on texts that are put
together from the same parts.  Names are not restricted otherwise: they may contain parentheses,
colons and line breaks.
-/

namespace EventDeck

open Text

namespace Command

/-! ## How commands are written -/

/-- The word of a command, in small letters. -/
def word : Command → String
  | destroy => "destroy"
  | add _ => CommandWord.add.word
  | remove _ => CommandWord.remove.word
  | activate _ => CommandWord.activate.word
  | deactivate _ => CommandWord.deactivate.word
  | chain _ => CommandWord.chain.word
  | randomChain .. => "randomchain"

/-- The seven words. -/
def words : List String :=
  "destroy" :: "randomchain" :: CommandWord.all.map CommandWord.word

/-- The arguments of a command, with its percent written in full. -/
def arguments : Command → List (List Char)
  | destroy => []
  | add name | remove name | activate name | deactivate name | chain name => [name.toList]
  | randomChain first second percent => [first.toList, second.toList, Decimal.write percent]

/-- A command takes arguments when they are its names and, for a percent, a number in any form. -/
inductive Takes : Command → List (List Char) → Prop
  | destroy : Takes destroy []
  | named (known : CommandWord) (name : List Char) :
      Takes (known.command (String.ofList name)) [name]
  | randomChain {first second percent : List Char} {number : Float}
      (read : Decimal.read? percent = some number) :
      Takes (randomChain (String.ofList first) (String.ofList second) number)
        [first, second, percent]

/-- A word is written with any of its letters as capitals. -/
def Names (word : List Char) (c : Command) : Prop :=
  lowerAscii (String.ofList word) = c.word

/-- Arguments in a row: blanks alone for none, and else the arguments with blanks around each and
commas between them. -/
inductive Lists : List (List Char) → List Char → Prop
  | none {inside : List Char} (blank : inside.all isBlank = true) : Lists [] inside
  | some {arguments slots : List (List Char)} (ne_nil : arguments ≠ [])
      (padded : List.Forall₂ Padded arguments slots) : Lists arguments ([','].intercalate slots)

/-- The texts `word(argument, ...)` with blanks around the whole, before the parenthesis and around
each argument. -/
def CallForm (word : List Char) (arguments : List (List Char)) (text : List Char) : Prop :=
  ∃ gap inside : List Char, gap.all isBlank = true ∧ Lists arguments inside ∧
    Padded (word ++ gap ++ '(' :: (inside ++ [')'])) text

/-- The texts `word:argument` with blanks around the word and around the argument. -/
def ColonForm (word argument text : List Char) : Prop :=
  ∃ left right : List Char, Padded word left ∧ Padded argument right ∧ text = left ++ ':' :: right

/-- The texts that a command is read from. -/
inductive Spells : Command → List Char → Prop
  | bare {word text : List Char} (names : Names word destroy) (padded : Padded word text) :
      Spells destroy text
  | call {c : Command} {word text : List Char} {arguments : List (List Char)}
      (names : Names word c) (takes : Takes c arguments)
      (proper : ∀ argument ∈ arguments, IsTrimmed argument ∧ ',' ∉ argument)
      (form : CallForm word arguments text) : Spells c text
  | colon {known : CommandWord} {word name text : List Char}
      (names : Names word (known.command (String.ofList name))) (trimmed : IsTrimmed name)
      (free : '(' ∉ name) (form : ColonForm word name text) :
      Spells (known.command (String.ofList name)) text

/-! ## Words -/

section Words

variable {c : Command} {word : List Char}

theorem word_command (known : CommandWord) (name : String) :
    (known.command name).word = known.word := by
  cases known <;> rfl

theorem word_mem_words (c : Command) : c.word ∈ words := by
  cases c <;> simp [word, words, CommandWord.all, CommandWord.word]

/-- The words of commands are made of small letters. -/
theorem small_of_mem_words : ∀ w ∈ words, w ≠ "" ∧ ∀ d ∈ w.toList, 'a' ≤ d ∧ d ≤ 'z' := by
  simp [words, CommandWord.all, CommandWord.word]

theorem isNameStart_of_toLower {d : Char} (h : 'a' ≤ d.toLower ∧ d.toLower ≤ 'z') :
    isNameStart d = true := by
  rw [Char.toLower] at h
  split at h
  · next hcapital =>
    simp only [isNameStart, Bool.or_eq_true, Bool.and_eq_true, decide_eq_true_eq]
    exact .inl (.inr hcapital)
  · simp only [isNameStart, Bool.or_eq_true, Bool.and_eq_true, decide_eq_true_eq]
    exact .inl (.inl h)

/-- The word of a command is made of ASCII letters. -/
theorem Names.all_isNameStart (h : Names word c) : ∀ d ∈ word, Text.isNameStart d = true := by
  intro d hd
  have hlist : word.map Char.toLower = c.word.toList := by
    rw [← h, lowerAscii, String.toList_ofList, String.toList_ofList]
  refine isNameStart_of_toLower ((small_of_mem_words c.word c.word_mem_words).2 d.toLower ?_)
  rw [← hlist]
  exact List.mem_map_of_mem hd

theorem Names.ne_nil (h : Names word c) : word ≠ [] := by
  rintro rfl
  exact (small_of_mem_words c.word c.word_mem_words).1 h.symm

/-- A character that begins no name is not in the word of a command. -/
theorem Names.not_mem {d : Char} (h : Names word c) (hd : isNameStart d = false) : d ∉ word :=
  fun hmem => Bool.false_ne_true (hd.symm.trans (h.all_isNameStart d hmem))

end Words

/-! ## Arguments -/

section Arguments

variable {inside : List Char} {arguments : List (List Char)}

theorem splitArguments_eq_nil_iff : splitArguments inside = [] ↔ inside.all isBlank = true := by
  rw [splitArguments]
  constructor
  · intro h
    split at h
    · next hblank =>
      obtain ⟨piece, hpieces, hpiece⟩ := List.map_eq_singleton_iff.1 hblank
      have hinside := intercalate_pieces ',' inside
      rw [hpieces, List.intercalate_singleton] at hinside
      rw [← hinside, ← trim_eq_nil_iff, hpiece]
    · exact absurd (List.map_eq_nil_iff.1 h) (pieces_ne_nil _ _)
  · intro h
    have hcomma : ',' ∉ inside := fun hmem => absurd (List.all_eq_true.1 h ',' hmem) (by decide)
    rw [pieces_eq_splitOn, List.splitOn_eq_singleton hcomma, List.map_singleton,
      trim_eq_nil_iff.2 h]

theorem splitArguments_of_ne_nil (h : splitArguments inside ≠ []) :
    splitArguments inside = (pieces ',' inside).map trim := by
  rw [splitArguments] at h ⊢
  split
  · next hblank =>
    rw [hblank] at h
    exact absurd rfl h
  · rfl

/-- Arguments are trimmed and have no commas in them. -/
theorem mem_splitArguments {argument : List Char} (h : argument ∈ splitArguments inside) :
    trim argument = argument ∧ ',' ∉ argument := by
  rw [splitArguments_of_ne_nil (List.ne_nil_of_mem h)] at h
  obtain ⟨piece, hpiece, rfl⟩ := List.mem_map.1 h
  have hcommas : ',' ∉ piece := not_mem_of_mem_pieces hpiece
  exact ⟨trim_trim piece, fun hcomma => hcommas ((infix_trim piece).subset hcomma)⟩

theorem lists_splitArguments (inside : List Char) : Lists (splitArguments inside) inside := by
  by_cases hnil : splitArguments inside = []
  · rw [hnil]
    exact .none (splitArguments_eq_nil_iff.1 hnil)
  · have heq := splitArguments_of_ne_nil hnil
    have hslots : List.Forall₂ Padded (splitArguments inside) (pieces ',' inside) := by
      rw [heq, List.forall₂_map_left_iff]
      exact List.forall₂_same.2 fun piece _ => padded_trim piece
    have hlists := Lists.some hnil hslots
    rwa [intercalate_pieces] at hlists

/-- Blanks around arguments are trimmed away, and no comma is hidden in them. -/
theorem map_trim_slots {slots : List (List Char)} (h : List.Forall₂ Padded arguments slots)
    (hproper : ∀ argument ∈ arguments, IsTrimmed argument ∧ ',' ∉ argument) :
    slots.map trim = arguments ∧ ∀ slot ∈ slots, ',' ∉ slot := by
  induction h with
  | nil => exact ⟨rfl, nofun⟩
  | @cons argument slot arguments slots hslot _ ih =>
    obtain ⟨htrimmed, hcomma⟩ := hproper argument List.mem_cons_self
    obtain ⟨hmap, hcommas⟩ := ih fun a ha => hproper a (List.mem_cons_of_mem _ ha)
    refine ⟨by rw [List.map_cons, hslot.eq_trim htrimmed, hmap], ?_⟩
    rintro s (_ | ⟨_, hs⟩)
    · exact hslot.not_mem hcomma (by decide)
    · exact hcommas s hs

/-- Arguments in a row are told apart again. -/
theorem Lists.splitArguments_eq (h : Lists arguments inside)
    (hproper : ∀ argument ∈ arguments, IsTrimmed argument ∧ ',' ∉ argument) :
    splitArguments inside = arguments := by
  cases h with
  | none blank => exact splitArguments_eq_nil_iff.2 blank
  | @some _ slots hne hpadded =>
    have hslots : slots ≠ [] := by
      rintro rfl
      exact hne (List.forall₂_nil_right_iff.1 hpadded)
    obtain ⟨hmap, hcommas⟩ := map_trim_slots hpadded hproper
    rw [splitArguments, pieces_eq_splitOn, List.splitOn_intercalate ',' hcommas hslots, hmap]
    split
    · exact absurd rfl (hproper [] (by simp)).1.ne_nil
    · rfl

end Arguments

/-! ## Calls -/

section Calls

variable {c : Command} {word text : List Char} {arguments : List (List Char)}

/-- A word is taken off the front of a text that goes on with blanks or a parenthesis, or ends. -/
theorem Names.takeWhile_eq (h : Names word c) {gap : List Char} (hgap : gap.all isBlank = true)
    (rest : List Char) (hrest : ∀ d ds, rest = d :: ds → d = '(') :
    (word ++ (gap ++ rest)).takeWhile isWordChar = word ∧
      ((word ++ (gap ++ rest)).dropWhile isWordChar).dropWhile isBlank = rest := by
  have hword : word.all isWordChar = true := by
    refine List.all_eq_true.2 fun d hd => ?_
    simp [isWordChar, isNameChar, h.all_isNameStart d hd]
  have hfollow : ∀ d ds, gap ++ rest = d :: ds → isWordChar d = false := by
    intro d ds heq
    rcases gap with _ | ⟨blank, gap⟩
    · rw [hrest d ds heq]
      decide
    · cases heq
      rw [List.all_cons, Bool.and_eq_true] at hgap
      exact isWordChar_of_isBlank hgap.1
  have hstop : ∀ d ds, rest = d :: ds → isBlank d = false := by
    intro d ds heq
    rw [hrest d ds heq]
    decide
  obtain ⟨htake, hdrop⟩ := Expr.span_append hword hfollow
  rw [htake, hdrop]
  exact ⟨rfl, (Expr.span_append hgap hstop).2⟩

theorem Names.head?_append (h : Names word c) (rest : List Char) :
    (word ++ rest).head?.any Text.isNameStart = true := by
  rcases word with _ | ⟨d, ds⟩
  · exact absurd rfl h.ne_nil
  · exact h.all_isNameStart d List.mem_cons_self

/-- The word and the arguments of a call. -/
theorem Names.parenthesized?_call (h : Names word c) {gap : List Char}
    (hgap : gap.all isBlank = true) (inside : List Char) :
    parenthesized? (word ++ gap ++ '(' :: (inside ++ [')'])) =
      some ⟨word, splitArguments inside⟩ := by
  obtain ⟨htake, hdrop⟩ := h.takeWhile_eq hgap ('(' :: (inside ++ [')']))
    fun d ds heq => (List.cons.inj heq).1.symm
  rw [List.append_assoc, parenthesized?, h.head?_append, htake, hdrop]
  change (before? [')'] (inside ++ [')'])).map _ = _
  rw [before?_append]
  rfl

theorem Names.parenthesized?_bare (h : Names word c) : parenthesized? word = some ⟨word, []⟩ := by
  obtain ⟨htake, hdrop⟩ := h.takeWhile_eq List.all_nil [] nofun
  have hhead := h.head?_append []
  simp only [List.append_nil] at htake hdrop hhead
  rw [parenthesized?, hhead, htake, hdrop]
  rfl

/-- What is read as a call is a word, blanks, and nothing more or arguments in parentheses. -/
theorem parenthesized?_cases {call : Call} (h : parenthesized? text = some call) :
    ∃ gap : List Char, gap.all isBlank = true ∧
      (text = call.word ++ gap ∧ call.arguments = [] ∨
        ∃ inside, text = call.word ++ gap ++ '(' :: (inside ++ [')']) ∧
          call.arguments = splitArguments inside) := by
  rw [parenthesized?] at h
  split at h
  · cases h
  -- the word and the blanks behind it, as far as they reach
  · have htext : text = text.takeWhile isWordChar ++
        ((text.dropWhile isWordChar).takeWhile isBlank ++
          (text.dropWhile isWordChar).dropWhile isBlank) := by
      rw [List.takeWhile_append_dropWhile, List.takeWhile_append_dropWhile]
    refine ⟨(text.dropWhile isWordChar).takeWhile isBlank, List.all_takeWhile, ?_⟩
    dsimp only at h
    split at h
    · next hnil =>
      rw [hnil, List.append_nil] at htext
      cases h
      exact .inl ⟨htext, rfl⟩
    · next rest hrest =>
      obtain ⟨inside, hinside, heq⟩ := Option.map_eq_some_iff.1 h
      rw [hrest, before?_eq_some hinside] at htext
      cases heq
      exact .inr ⟨inside, by rw [List.append_assoc]; exact htext, rfl⟩
    · cases h

theorem call?_of_mem (h : '(' ∈ text) : call? text = parenthesized? text := by
  rw [call?, if_pos (by simpa using h)]

/-- A colon makes a call with one argument out of what stands before it and behind it. -/
theorem call?_colon {left right : List Char} (hleft : ':' ∉ left)
    (hfree : '(' ∉ left ++ ':' :: right) :
    call? (left ++ ':' :: right) = some ⟨trim left, [trim right]⟩ := by
  rw [call?, if_neg (by simpa using hfree), Expr.cut_append_of_not_mem hleft, Expr.cut_cons,
    if_pos rfl]
  simp

theorem call?_of_not_mem (h : ':' ∉ text) : call? text = parenthesized? text := by
  have hcut : cut [':'] text = none := by
    have := Expr.cut_append_of_not_mem h []
    rwa [List.append_nil] at this
  rw [call?, hcut, ite_self]

/-- What is read as a call is a word and an argument with a colon between them, or a call in
parentheses. -/
theorem call?_cases {call : Call} (h : call? text = some call) :
    parenthesized? text = some call ∨
      ∃ left right, text = left ++ ':' :: right ∧ '(' ∉ right ∧ call = ⟨trim left, [trim right]⟩ := by
  rw [call?] at h
  split at h
  · next word argument hcut =>
    split at hcut
    · cases hcut
    · next hfree =>
      have htext := cut_eq_some hcut
      rw [List.append_assoc, List.singleton_append] at htext
      refine .inr ⟨word, argument, htext, ?_, (Option.some.inj h).symm⟩
      rw [htext] at hfree
      simpa using fun hmem => hfree (by simp [hmem])
  · exact .inl h

end Calls

/-! ## Commands -/

section Commands

variable {c : Command} {word text : List Char} {arguments : List (List Char)}

/-- The meaning of a word with arguments. -/
theorem ofParts?_eq_ok_iff :
    ofParts? (lowerAscii (String.ofList word)) arguments = some (.ok c) ↔
      Names word c ∧ Takes c arguments := by
  constructor
  · intro h
    -- The words are tried in an order; each of them has its own form of arguments.
    unfold ofParts? at h
    split at h
    · next hword =>
      split at h
      · next hnil =>
        cases h
        rw [List.isEmpty_iff.1 hnil]
        exact ⟨hword, .destroy⟩
      · cases h
    · split at h
      · next hword =>
        have h := Option.some.inj h
        split at h
        · split at h
          · next hread =>
            cases h
            exact ⟨hword, .randomChain hread⟩
          · cases h
        · cases h
      · obtain ⟨known, hfind, hknown⟩ := Option.map_eq_some_iff.1 h
        split at hknown
        · next name =>
          cases hknown
          have hword := List.find?_some hfind
          exact ⟨(word_command known _ ▸ (of_decide_eq_true hword).symm :), .named known name⟩
        · cases hknown
  · rintro ⟨hnames, htakes⟩
    rw [hnames]
    cases htakes with
    | destroy => rfl
    | named known name => cases known <;> rfl
    | randomChain hread =>
      unfold ofParts?
      rw [if_neg (by simp [Command.word]), if_pos (by rfl)]
      dsimp only
      rw [hread]

/-- A text is read as a command when it is a call that has no empty argument and means the command. -/
theorem parse_eq_ok_iff_call {text : String} : parse text = .ok c ↔
    ∃ call, call? (trim text.toList) = some call ∧ Names call.word c ∧ Takes c call.arguments ∧
      [] ∉ call.arguments := by
  have hparts : ∀ call : Call, ofParts? (lowerAscii (String.ofList call.word)) call.arguments =
      some (.ok c) ↔ Names call.word c ∧ Takes c call.arguments := fun _ => ofParts?_eq_ok_iff
  have hempty : ∀ call : Call, call.arguments.any List.isEmpty = true ↔ [] ∈ call.arguments := by
    simp
  rw [parse]
  cases hcall : call? (trim text.toList) with
  | none => simp
  | some call =>
    simp only [Option.some.injEq, exists_eq_left']
    rw [← and_assoc, ← hparts]
    cases ofParts? (lowerAscii (String.ofList call.word)) call.arguments with
    | none => simp
    | some meaning =>
      dsimp only
      rw [Option.some.injEq, ← hempty]
      split
      · next hany => simp [hany]
      · next hany => simp [hany]

theorem Names.isTrimmed (h : Names word c) : IsTrimmed word :=
  ⟨h.ne_nil, trim_of_not_isBlank fun d hd =>
    Expr.isBlank_of_isNameChar (isNameChar_of_isNameStart (h.all_isNameStart d hd))⟩

/-- A text that spells a command is read as that command. -/
theorem Spells.parse_eq {text : String} (h : Spells c text.toList) : parse text = .ok c := by
  rw [parse_eq_ok_iff_call]
  -- A bare word, a word with arguments in parentheses, a word with a name behind a colon: in each form
  -- the parts are found where they were written.
  cases h with
  | @bare word _ hnames hpadded =>
    refine ⟨⟨word, []⟩, ?_, hnames, .destroy, List.not_mem_nil⟩
    rw [hpadded.eq_trim hnames.isTrimmed, call?_of_not_mem (hnames.not_mem (by decide)),
      hnames.parenthesized?_bare]
  | @call _ word _ arguments hnames htakes hproper hform =>
    obtain ⟨gap, inside, hgap, hlists, hpadded⟩ := hform
    have htrimmed : IsTrimmed (word ++ gap ++ '(' :: (inside ++ [')'])) := by
      have hclosing : IsTrimmed [')'] := by decide
      have happend := hnames.isTrimmed.append hclosing (gap ++ '(' :: inside)
      simpa using happend
    refine ⟨⟨word, arguments⟩, ?_, hnames, htakes, fun hmem => (hproper [] hmem).1.ne_nil rfl⟩
    rw [hpadded.eq_trim htrimmed, call?_of_mem (by simp), hnames.parenthesized?_call hgap,
      hlists.splitArguments_eq hproper]
  | @colon known word name _ hnames htrimmed hfree hform =>
    obtain ⟨left, right, ⟨before, gap, hbefore, hgap, rfl⟩, ⟨gap', after, hgap', hafter, rfl⟩, heq⟩ :=
      hform
    have hword : Padded word (word ++ gap) := ⟨[], gap, rfl, hgap, rfl⟩
    have hname : Padded name (gap' ++ name) := ⟨gap', [], hgap', rfl, by simp⟩
    have hpadded : Padded (word ++ gap ++ ':' :: (gap' ++ name)) text.toList :=
      ⟨before, after, hbefore, hafter, by simp [heq]⟩
    have hbody : IsTrimmed (word ++ gap ++ ':' :: (gap' ++ name)) := by
      have happend := hnames.isTrimmed.append htrimmed (gap ++ ':' :: gap')
      simpa using happend
    refine ⟨⟨word, [name]⟩, ?_, hnames, .named known name, by simpa using htrimmed.ne_nil.symm⟩
    rw [hpadded.eq_trim hbody, call?_colon, hword.eq_trim hnames.isTrimmed, hname.eq_trim htrimmed]
    · exact hword.not_mem (hnames.not_mem (by decide)) (by decide)
    · have hleft := hword.not_mem (hnames.not_mem (d := '(') (by decide)) (by decide)
      have hright := hname.not_mem hfree (by decide)
      simp only [List.mem_append, List.mem_cons, not_or] at hleft hright ⊢
      exact ⟨hleft, by decide, hright⟩

/-- A text that is read as a command spells it. -/
theorem spells_of_parse {text : String} (h : parse text = .ok c) : Spells c text.toList := by
  obtain ⟨call, hcall, hnames, htakes, hempty⟩ := parse_eq_ok_iff_call.1 h
  have hpadded := padded_trim text.toList
  -- what the reader has taken apart is put together again, with the blanks where they were
  rcases call?_cases hcall with hcall | ⟨left, right, htext, hfree, rfl⟩
  · obtain ⟨gap, hgap, ⟨htext, hnil⟩ | ⟨inside, htext, harguments⟩⟩ := parenthesized?_cases hcall
    · rw [hnil] at htakes
      cases htakes
      obtain ⟨before, after, hbefore, hafter, heq⟩ := hpadded
      rw [htext] at heq
      exact .bare hnames ⟨before, gap ++ after, hbefore, by simp [hgap, hafter], by simp [heq]⟩
    · rw [htext] at hpadded
      refine .call hnames htakes ?_ ⟨gap, inside, hgap, ?_, hpadded⟩
      · intro argument hmem
        obtain ⟨htrim, hcomma⟩ := mem_splitArguments (harguments ▸ hmem)
        exact ⟨⟨fun hnil => hempty (hnil ▸ hmem), htrim⟩, hcomma⟩
      · rw [harguments]
        exact lists_splitArguments inside
  · obtain ⟨before, after, hbefore, hafter, heq⟩ := hpadded
    cases htakes with
    | named known name =>
      have hne : trim right ≠ [] := fun hnil => hempty (by simp [hnil])
      have hleft := (padded_trim left).append_blank hbefore List.all_nil
      have hright := (padded_trim right).append_blank List.all_nil hafter
      refine .colon hnames (isTrimmed_trim hne) (fun hmem => hfree ((infix_trim right).subset hmem))
        ⟨_, _, hleft, hright, ?_⟩
      rw [heq, htext]
      simp

theorem parse_eq_ok_iff {text : String} : parse text = .ok c ↔ Spells c text.toList :=
  ⟨spells_of_parse, Spells.parse_eq⟩

theorem Spells.isTrimmed (h : Spells c text) : ∀ name ∈ c.references, IsTrimmed name.toList := by
  cases h with
  | bare => exact nofun
  | call hnames htakes hproper hform =>
    cases htakes with
    | destroy => exact nofun
    | named known name =>
      have hname := (hproper name (by simp)).1
      cases known <;> simpa [references, CommandWord.command] using hname
    | @randomChain first second percent number hread =>
      have hfirst := (hproper first (by simp)).1
      have hsecond := (hproper second (by simp)).1
      simpa [references] using ⟨hfirst, hsecond⟩
  | @colon known word name _ hnames hname hfree hform =>
    cases known <;> simpa [references, CommandWord.command] using hname

end Commands

/-! ## Reading back -/

section Readback

variable {c : Command}

/-- A command that can be written as a call: its names are trimmed and have no commas in them, and
its percent is a number. -/
structure IsPlain (c : Command) : Prop where
  names : ∀ name ∈ c.references, IsTrimmed name.toList ∧ ',' ∉ name.toList
  percent : ∀ first second percent, c = randomChain first second percent → percent.isNaN = false

/-- Nothing that is written of a double is blank or a comma. -/
theorem not_isBlank_of_mem_write (x : Float) :
    Decimal.write x ≠ [] ∧ ∀ d ∈ Decimal.write x, isBlank d = false ∧ d ≠ ',' := by
  cases hx : Decimal.Binary.ofFloat x with
  | finite negative m e =>
    obtain ⟨minus, body, hwrite, hbody⟩ := Decimal.exists_write_eq (x := x) (by
      rw [Decimal.isFinite, hx])
    have hnumber := hbody.isNumber
    have hall : ∀ d ∈ body, isBlank d = false ∧ d ≠ ',' := fun d hd =>
      ⟨(hnumber.isNumberChar d hd).not_isBlank, fun h => hnumber.not_mem (by decide) (h ▸ hd)⟩
    rw [hwrite, Decimal.signed]
    split
    · refine ⟨List.cons_ne_nil _ _, ?_⟩
      rintro d (_ | ⟨_, hd⟩)
      · decide
      · exact hall d hd
    · exact ⟨hnumber.ne_nil, hall⟩
  | infinite negative =>
    rw [Decimal.write, Decimal.writeWith, hx]
    cases negative <;> simp [Decimal.signed, isBlank, isWhiteSpace]
  | notANumber =>
    rw [Decimal.write, Decimal.writeWith, hx]
    simp [isBlank, isWhiteSpace]

theorem IsPlain.takes (h : IsPlain c) : Takes c c.arguments := by
  have hnamed : ∀ (known : CommandWord) (name : String),
      Takes (known.command name) [name.toList] := by
    intro known name
    have := Takes.named known name.toList
    rwa [String.ofList_toList] at this
  cases c with
  | destroy => exact .destroy
  | add name => exact hnamed .add name
  | remove name => exact hnamed .remove name
  | activate name => exact hnamed .activate name
  | deactivate name => exact hnamed .deactivate name
  | chain name => exact hnamed .chain name
  | randomChain first second percent =>
    have hread := Decimal.read?_write_of_isNaN (h.percent first second percent rfl)
    have htakes := @Takes.randomChain first.toList second.toList _ _ hread
    rwa [String.ofList_toList, String.ofList_toList] at htakes

theorem IsPlain.proper (h : IsPlain c) :
    ∀ argument ∈ c.arguments, IsTrimmed argument ∧ ',' ∉ argument := by
  have hnames := h.names
  cases c with
  | destroy => exact nofun
  | add | remove | activate | deactivate | chain =>
    simpa [references, arguments] using hnames
  | randomChain first second percent =>
    obtain ⟨hne, hall⟩ := not_isBlank_of_mem_write percent
    have hpercent : IsTrimmed (Decimal.write percent) ∧ ',' ∉ Decimal.write percent :=
      ⟨⟨hne, trim_of_not_isBlank fun d hd => (hall d hd).1⟩, fun hmem => (hall _ hmem).2 rfl⟩
    rintro argument (_ | ⟨_, _ | ⟨_, _ | ⟨_, hnil⟩⟩⟩)
    · exact hnames first (by simp [references])
    · exact hnames second (by simp [references])
    · exact hpercent
    · cases hnil

/-- A command is read back from each of its call forms, and a command with one name from each of its
colon forms when there is no opening parenthesis in the name.  Conversely, a text that is read as a
command spells it, with one of the seven words and with names that are trimmed, and every other text
is refused. -/
theorem parse_spelled (text : String) :
    (∀ c word, IsPlain c → Names word c → CallForm word c.arguments text.toList →
      parse text = .ok c) ∧
    (∀ (known : CommandWord) (name : String) (word : List Char), IsTrimmed name.toList →
      '(' ∉ name.toList → Names word (known.command name) →
      ColonForm word name.toList text.toList → parse text = .ok (known.command name)) ∧
    (∀ c, parse text = .ok c → Spells c text.toList ∧ c.word ∈ words ∧
      ∀ name ∈ c.references, IsTrimmed name.toList) ∧
    ((∀ c, ¬Spells c text.toList) → ∃ error, parse text = .error error) := by
  refine ⟨?_, ?_, ?_, ?_⟩
  · intro c word hplain hnames hform
    exact parse_eq_ok_iff.2 (.call hnames hplain.takes hplain.proper hform)
  · intro known name word htrimmed hfree hnames hform
    rw [← String.ofList_toList (s := name)] at hnames ⊢
    exact parse_eq_ok_iff.2 (.colon hnames htrimmed hfree hform)
  · intro c hparse
    have hspells := parse_eq_ok_iff.1 hparse
    exact ⟨hspells, c.word_mem_words, hspells.isTrimmed⟩
  · intro hnone
    cases hparse : parse text with
    | ok c => exact absurd (parse_eq_ok_iff.1 hparse) (hnone c)
    | error error => exact ⟨error, rfl⟩

/-- Names may contain parentheses, colons and line breaks. -/
theorem parse_spelled_parentheses :
    parse " RandomChain ( (a:\nb) ,\tc( , 12.5)\n" = .ok (randomChain "(a:\nb)" "c(" 12.5) ∧
      parse "ADD : x:y)" = .ok (add "x:y)") := by
  have hplain : IsPlain (randomChain "(a:\nb)" "c(" 12.5) := by
    refine ⟨by decide, ?_⟩
    rintro first second percent ⟨⟩
    decide +kernel
  have hslots : List.Forall₂ Padded (randomChain "(a:\nb)" "c(" 12.5).arguments
      [" (a:\nb) ".toList, "\tc( ".toList, " 12.5".toList] := by
    have hwrite : Decimal.write 12.5 = "12.5".toList := by decide +kernel
    rw [arguments, hwrite]
    exact .cons ⟨[' '], [' '], rfl, rfl, rfl⟩ (.cons ⟨['\t'], [' '], rfl, rfl, rfl⟩
      (.cons ⟨[' '], [], rfl, rfl, rfl⟩ .nil))
  refine ⟨?_, ?_⟩
  · refine (parse_spelled _).1 _ "RandomChain".toList hplain rfl
      ⟨[' '], _, rfl, .some (List.cons_ne_nil _ _) hslots, [' '], ['\n'], rfl, rfl, rfl⟩
  · exact (parse_spelled _).2.1 .add "x:y)" "ADD".toList (by decide) (by decide) rfl
      ⟨"ADD ".toList, " x:y)".toList, ⟨[], [' '], rfl, rfl, rfl⟩, ⟨[' '], [], rfl, rfl, rfl⟩, rfl⟩

end Readback

end Command

end EventDeck
