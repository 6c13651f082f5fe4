import EventDeck.Proofs.Game.Frames
import EventDeck.Proofs.Service.Foremost
import EventDeck.Proofs.Service.Resolution

/-!
# What is presented after a chain

A chain puts a card right behind the first one of the queue, which it takes for the card that is being
resolved.  If it is, the end of the turn takes it out, and the chained card comes next.  If an earlier
special effect has taken it out, another card is first, and that one is presented unless it has a
condition that does not hold (`chained_presented`).

The card that a special effect chains is `Session.chained?`; a command that may chain succeeds exactly
when there is one (`Session.success_iff_chained`).
-/

namespace EventDeck

open Game Text

/-! ## The queue -/

namespace Catalog

variable {catalog : Catalog} {first : Nat}

/-- A chained card is behind the first one. -/
theorem queue_edit_chain (hhead : catalog.head? = some first) (card place : Nat) (name : String) :
    ∃ rest, (catalog.edit card place (.chain name)).queue = first :: card :: rest := by
  rw [edit]
  split
  next => exact ⟨_, queue_insertAt_one hhead card⟩
  next hother =>
    have hne : first ≠ card := by
      rintro rfl
      exact hother hhead
    exact ⟨_, queue_insertAt_one (head?_dequeue_of_ne hne hhead) card⟩

/-- When a card is discarded, the one behind it is in front, or the first one stays. -/
theorem head?_discarded {card : Nat} {rest : List Nat}
    (hqueue : catalog.queue = first :: card :: rest) (key : Nat) :
    ((catalog.setDiscarded key true).dequeue key).head? =
      some (if first = key then card else first) := by
  have hhead : (catalog.setDiscarded key true).head? = some first := congrArg List.head? hqueue
  split
  next heq =>
    subst heq
    rw [head?_dequeue_self hhead]
    exact congrArg (·[1]?) hqueue
  next hne => exact head?_dequeue_of_ne hne hhead

theorem cards_edit_chain (catalog : Catalog) (card place : Nat) (name : String) :
    (catalog.edit card place (.chain name)).cards = catalog.cards := by
  rw [edit]
  split <;> rfl

/-- When a card is discarded that is neither the first one nor the one behind it, these two stay. -/
theorem exists_queue_discarded {card key : Nat} {rest : List Nat}
    (hqueue : catalog.queue = first :: card :: rest) (hfirst : first ≠ key) (hcard : card ≠ key) :
    ∃ rest, ((catalog.setDiscarded key true).dequeue key).queue = first :: card :: rest :=
  exists_queue_dequeue ⟨rest, hqueue⟩ hfirst hcard

theorem card_discarded_of_ne {key other : Nat} (catalog : Catalog) (hne : other ≠ key) :
    ((catalog.setDiscarded key true).dequeue key).card other = catalog.card other := by
  change (catalog.setDiscarded key true).card other = _
  rw [setDiscarded, card_modify, if_neg fun h => hne h.1]

end Catalog

namespace Session

variable {game opened : Game} {text : String} {texts : List String} {key first card : Nat}
  {choice : Choice}

/-! ## Chaining -/

/-- The card that a special effect chains, if it does. -/
def chained? (special : String) (game : Game) : Option Nat :=
  match Command.parse special with
  | .ok command =>
    match command.rolled game.generator with
    | .chain name => game.catalog.sought? (.chain name)
    | _ => none
  | .error _ => none

theorem exists_command_of_chained (h : chained? text game = some card) :
    ∃ command name, Command.parse text = .ok command ∧
      command.rolled game.generator = .chain name ∧
      game.catalog.sought? (.chain name) = some card := by
  unfold chained? at h
  split at h
  next command hparse =>
    split at h
    next name hrolled => exact ⟨command, name, hparse, hrolled, h⟩
    next => cases h
  next => cases h

/-- A special effect that chains a card is carried out. -/
theorem run_runSpecial_chained (h : chained? text game = some card) :
    ∃ result generator name, result.success = true ∧ (runSpecial text).run.run game =
      (.ok result, { game with catalog := game.catalog.edit card 1 (.chain name), generator }) := by
  obtain ⟨command, name, hparse, hrolled, hcard⟩ := exists_command_of_chained h
  have hanswers := answers_execute command game
  rw [hrolled] at hanswers
  rw [runSpecial, hparse]
  cases hanswers with
  | refused hnone => exact absurd (hnone.symm.trans hcard) nofun
  | done place hsought _ hmakes =>
    obtain rfl := Option.some.inj (hsought.symm.trans hcard)
    obtain ⟨result, generator, hsuccess, hrun⟩ := hmakes
    rw [CommandResult.reported_of_success hsuccess] at hrun
    exact ⟨result, generator, name, hsuccess, hrun⟩

/-- A command that may chain is carried out exactly when it chains a card. -/
theorem success_iff_chained {command : Command} (hparse : Command.parse text = .ok command)
    (hchains : command.chains ≠ []) :
    ∃ result after, (runSpecial text).run.run game = (.ok result, after) ∧
      (result.success = true ↔ ∃ card, chained? text game = some card) := by
  cases hchained : chained? text game with
  | some card =>
    obtain ⟨result, generator, name, hsuccess, hrun⟩ := run_runSpecial_chained hchained
    exact ⟨result, _, hrun, iff_of_true hsuccess ⟨card, rfl⟩⟩
  | none =>
    -- only chains chain; a random one is decided by the generator of the moment
    have hrolled : ∃ name, command.rolled game.generator = .chain name := by
      cases command with
      | chain name => exact ⟨name, rfl⟩
      | randomChain first second percent => exact ⟨_, rfl⟩
      | _ => exact absurd rfl hchains
    obtain ⟨name, hrolled⟩ := hrolled
    have hanswers := answers_execute command game
    rw [hrolled] at hanswers
    rw [chained?, hparse] at hchained
    dsimp only at hchained
    rw [hrolled] at hchained
    rw [runSpecial, hparse]
    cases hanswers with
    | refused _ hmakes =>
      obtain ⟨result, generator, hfailed, hrun⟩ := hmakes
      exact ⟨result, _, hrun, iff_of_false (by simp [hfailed]) nofun⟩
    | done place hsought => exact absurd (hsought.symm.trans hchained) nofun

/-- A card is chained behind another one. -/
theorem exists_head_of_chained (h : chained? text game = some card) :
    ∃ first, game.catalog.head? = some first := by
  obtain ⟨_, name, -, -, hcard⟩ := exists_command_of_chained h
  rw [Catalog.sought?] at hcard
  split at hcard
  · cases hcard
  next hqueued =>
    exact Option.isSome_iff_exists.mp (by simpa [Catalog.head?] using hqueued)

/-- The special effects of a list are carried out one after the other. -/
theorem run_mapM_runSpecial (texts : List String) (game : Game) :
    ∃ results, (texts.mapM runSpecial).run.run game =
      (.ok results, last game (specialMoments texts game)) := by
  induction texts generalizing game with
  | nil => exact ⟨[], rfl⟩
  | cons text texts ih =>
    obtain ⟨result, after, hrun⟩ := exists_run_runSpecial text game
    obtain ⟨results, hrest⟩ := ih after
    rw [List.mapM_cons, run_bind_ok hrun, run_bind_ok hrest, specialMoments, hrun]
    exact ⟨result :: results, rfl⟩

theorem last_specialMoments_concat (texts : List String) (text : String) (game : Game) :
    last game (specialMoments (texts ++ [text]) game) =
      ((runSpecial text).run.run (last game (specialMoments texts game))).2 := by
  induction texts generalizing game with
  | nil =>
    rw [List.nil_append, specialMoments_cons]
    rfl
  | cons other texts ih =>
    rw [List.cons_append, specialMoments_cons, specialMoments_cons]
    exact ih _

/-- Effects that have been carried out are followed by the special effects. -/
theorem run_runEffects {effects specials : List String}
    (h : (Session.opening silent effects specials).run.run game = (.ok texts, opened)) :
    ∃ outcome, (runEffects silent effects specials).run.run game =
      (.ok outcome, last opened (specialMoments texts opened)) := by
  obtain ⟨_, between, heffects, hspecials⟩ := exists_run_of_bind h
  cases hspecials
  obtain ⟨results, hrest⟩ := run_mapM_runSpecial (authored specials) opened
  rw [runEffects, run_bind_ok heffects, run_bind_ok hrest]
  exact ⟨_, rfl⟩

end Session

namespace Game

variable {before game asked after : Game} {key card : Nat} {action : Option Action}
  {answer : SelectRequest}

/-! ## The next card -/

/-- The next card that is presented is a certain one, unless a fault breaks the call off; then none
is. -/
def GoesOnTo (call : Call) (before : Game) (card : Nat) (after : Game) : Prop :=
  after.scheduler.presented = card :: before.scheduler.presented ∨
    (∃ fault, call.BreaksOff before fault) ∧
      after.scheduler.presented = before.scheduler.presented

/-- Another card, which has a condition, is in front of the chained one.  Unless a fault breaks the call
off, one of the two is presented next: the first one only if its condition is found to hold or is not
checked, the chained one only if that condition is found not to hold. -/
structure Contends (call : Call) (before chaining : Game) (first card : Nat) (after : Game) :
    Prop where
  either : GoesOnTo call before first after ∨ GoesOnTo call before card after
  holds : after.scheduler.presented = first :: before.scheduler.presented →
    first ∈ chaining.catalog.pool → (chaining.catalog.card first).discarded = false →
      chaining.Judges first true
  fails : after.scheduler.presented = card :: before.scheduler.presented →
    chaining.Judges first false

/-- A selection is resolved and its card is discarded: the game then, and what comes of moving on from
it. -/
structure MovesOn (answer : SelectRequest) (before resolved : Game) (key : Nat) (asked : Game)
    (result : Except Fault Phase) : Prop where
  faces : before.catalog.SameFaces asked.catalog
  catalog : asked.catalog = (resolved.catalog.setDiscarded key true).dequeue key
  store : asked.store = resolved.store
  presented : asked.scheduler.presented = before.scheduler.presented
  advance : Game.advance.run.run asked = (result, Call.played before (.select answer))
  breaks : ∀ fault, result = .error fault → (Call.select answer).BreaksOff before fault

/-- A selection that is accepted moves on when its effects have been carried out. -/
theorem exists_movesOn {between resolved : Game} {outcome : EventDeck.Outcome}
    (haccepted : (accepted? answer.choice).run.run before = (.ok (some (key, action)), between))
    (houtcome : (outcomeOf action).run.run (between.accepting key) = (.ok outcome, resolved)) :
    ∃ asked result, MovesOn answer before resolved key asked result := by
  rcases hselect : (Game.select silent answer.choice).run.run before with ⟨selected, after⟩
  have hafter : Call.played before (.select answer) = after := congrArg Prod.snd hselect
  cases selects_select hselect with
  | broken h | refused h =>
    rw [haccepted] at h
    cases h
  | @accepted _ _ other _ _ h hready haction hrun =>
    rw [haccepted] at h
    cases h
    have hbetween : Evaluates before none between :=
      (evaluates_accepted? answer.choice before).of_ok haccepted
    rcases hdiscard : (discard key).run.run resolved with ⟨fault | _, asked⟩
    · cases hdiscard
    have hresolves : Resolves between key action asked := ⟨outcome, resolved, houtcome, hdiscard⟩
    obtain ⟨⟨stages, hcourse⟩, hpresented⟩ := hresolves.leads hready haction
    have hfaces : before.catalog.SameFaces asked.catalog := hbetween.catalog ▸ hcourse.frame.faces
    rw [hbetween.scheduler] at hpresented
    rw [run_resolve, run_bind_ok houtcome, run_bind_ok hdiscard] at hrun
    -- A fault of the check breaks off the call, after the card has been discarded; the game at the end
    -- is the same in both cases.
    rcases hadvance : Game.advance.run.run asked with ⟨fault | phase, last⟩
    · rw [run_bind_error hadvance] at hrun
      cases hrun
      cases hdiscard
      refine ⟨_, .error fault, hfaces, rfl, rfl, hpresented, hafter ▸ hadvance, ?_⟩
      rintro _ ⟨⟩
      exact ⟨⟨key, action, between, haccepted⟩, congrArg Prod.fst hselect⟩
    · rw [run_bind_ok hadvance] at hrun
      cases hrun
      cases hdiscard
      exact ⟨_, .ok phase, hfaces, rfl, rfl, hpresented, hafter ▸ hadvance, nofun⟩

namespace MovesOn

variable {resolved chaining : Game} {result : Except Fault Phase} {first : Nat}

/-- A fault breaks the call off. -/
theorem breaksOff (h : MovesOn answer before resolved key asked result) {fault : Fault}
    (hadvance : Game.advance.run.run asked = (.error fault, after))
    (hsame : after.scheduler.presented = asked.scheduler.presented) :
    (∃ fault, (Call.select answer).BreaksOff before fault) ∧
      (Call.played before (.select answer)).scheduler.presented = before.scheduler.presented := by
  obtain ⟨hresult, hplayed⟩ := Prod.mk.inj (h.advance.symm.trans hadvance)
  exact ⟨⟨fault, h.breaks fault hresult⟩, by rw [hplayed, hsame, h.presented]⟩

/-- A card without a condition that is in front is the next one. -/
theorem goesOnTo (h : MovesOn answer before resolved key asked result) (hfronts : asked.Fronts card) :
    GoesOnTo (.select answer) before card (Call.played before (.select answer)) := by
  rcases presented_of_fronts hfronts with ⟨fault, after, hadvance, hsame⟩ |
    ⟨phase, after, hadvance, hnext⟩
  · exact .inr (h.breaksOff hadvance hsame)
  · obtain ⟨-, hplayed⟩ := Prod.mk.inj (h.advance.symm.trans hadvance)
    exact .inl (by rw [hplayed, hnext, h.presented])

/-- A card with a condition that is in front of the chained one contends with it. -/
theorem contends (h : MovesOn answer before resolved key asked result)
    (hprecedes : asked.Precedes first card) (hstore : asked.store = chaining.store)
    (hpool : asked.catalog.pool = chaining.catalog.pool)
    (hfirst : asked.catalog.card first = chaining.catalog.card first) :
    Contends (.select answer) before chaining first card (Call.played before (.select answer)) := by
  have hback : ∀ {wanted}, asked.Judges first wanted → chaining.Judges first wanted :=
    fun hjudges => hjudges.of_same hstore (congrArg Card.condition hfirst)
  rcases presented_of_precedes hprecedes with ⟨fault, after, hadvance, hsame⟩ |
    ⟨phase, after, hadvance, hnext⟩
  · have hbroken := h.breaksOff hadvance hsame
    have hnone : ∀ next, (Call.played before (.select answer)).scheduler.presented ≠
        next :: before.scheduler.presented := fun next hnext =>
      List.cons_ne_self _ _ (hnext.symm.trans hbroken.2)
    exact ⟨.inl (.inr hbroken), fun hnext => absurd hnext (hnone _), fun hnext => absurd hnext (hnone _)⟩
  · obtain ⟨-, hplayed⟩ := Prod.mk.inj (h.advance.symm.trans hadvance)
    rw [← hplayed, h.presented] at hnext
    -- only one of the two cards is presented
    have hother : ∀ {next other : Nat}, next ≠ other →
        (Call.played before (.select answer)).scheduler.presented =
          next :: before.scheduler.presented →
        (Call.played before (.select answer)).scheduler.presented ≠
          other :: before.scheduler.presented := fun hne hnext hother =>
      hne (List.cons.inj (hnext.symm.trans hother)).1
    rcases hnext with ⟨hnext, hheld⟩ | ⟨hnext, hfailed⟩
    · refine ⟨.inl (.inl hnext), fun _ hmem hlive => ?_, fun hcard => ?_⟩
      · exact hback (hheld (hpool ▸ hmem) (hfirst ▸ hlive))
      · exact absurd hcard (hother hprecedes.ne hnext)
    · refine ⟨.inr (.inl hnext), fun hfirst => ?_, fun _ => hback hfailed⟩
      exact absurd hfirst (hother hprecedes.ne.symm hnext)

end MovesOn

end Game

namespace Session

variable {before opened : Game} {earlier : List String} {text : String} {key first card next : Nat}
  {answer : SelectRequest}

/-- The last special effect of an action chains a card, and play moves on from there. -/
theorem exists_movesOn_of_chained
    (hopening : ((Operation.select answer.choice).opening silent).run.run before =
      (.ok (earlier ++ [text]), opened))
    (hchained : chained? text (last opened (specialMoments earlier opened)) = some card)
    (hkey : before.scheduler.current = some key) :
    ∃ generator name asked result,
      let chaining := last opened (specialMoments earlier opened)
      MovesOn answer before
        { chaining with catalog := chaining.catalog.edit card 1 (.chain name), generator } key asked
          result := by
  have htexts : earlier ++ [text] ≠ [] := by simp
  obtain ⟨current, action, between, haccepted, hopening⟩ :=
    exists_accepted_of_opening hopening htexts
  obtain ⟨outcome, houtcome⟩ := run_runEffects hopening
  have hready := Accepts.ready ⟨_, _, haccepted⟩
  obtain rfl : current = key := Option.some.inj (hready.2.2.symm.trans hkey)
  obtain ⟨result, generator, name, -, hrun⟩ := run_runSpecial_chained hchained
  rw [last_specialMoments_concat, hrun] at houtcome
  exact ⟨generator, name, exists_movesOn haccepted houtcome⟩

/-- The card that is in front without a condition, the chained one or another, comes next. -/
theorem goesOnTo_chained
    (hopening : ((Operation.select answer.choice).opening silent).run.run before =
      (.ok (earlier ++ [text]), opened))
    (hchained : chained? text (last opened (specialMoments earlier opened)) = some card)
    (hkey : before.scheduler.current = some key)
    (hfirst : (last opened (specialMoments earlier opened)).catalog.head? = some first)
    (hnext : next = if first = key then card else first)
    (hblank : isBlankText (before.catalog.card next).condition = true) :
    GoesOnTo (.select answer) before next (Call.played before (.select answer)) := by
  obtain ⟨generator, name, asked, result, hmoves⟩ :=
    exists_movesOn_of_chained hopening hchained hkey
  obtain ⟨rest, hqueue⟩ := Catalog.queue_edit_chain hfirst card 1 name
  have hhead := Catalog.head?_discarded hqueue key
  rw [← hnext, ← hmoves.catalog] at hhead
  exact hmoves.goesOnTo ⟨hhead, hmoves.faces.condition next ▸ hblank⟩

/-- Another card is in front, and it has a condition. -/
theorem contends_chained
    (hopening : ((Operation.select answer.choice).opening silent).run.run before =
      (.ok (earlier ++ [text]), opened))
    (hchained : chained? text (last opened (specialMoments earlier opened)) = some card)
    (hkey : before.scheduler.current = some key)
    (hfirst : (last opened (specialMoments earlier opened)).catalog.head? = some first)
    (hother : first ≠ key) (hcard : card ≠ key)
    (hconditional : isBlankText (before.catalog.card first).condition = false)
    (hblank : isBlankText (before.catalog.card card).condition = true) :
    Contends (.select answer) before (last opened (specialMoments earlier opened)) first card
      (Call.played before (.select answer)) := by
  obtain ⟨generator, name, asked, result, hmoves⟩ :=
    exists_movesOn_of_chained hopening hchained hkey
  have hcatalog := hmoves.catalog
  obtain ⟨rest, hqueue⟩ := Catalog.queue_edit_chain hfirst card 1 name
  have hprecedes : asked.Precedes first card := by
    refine ⟨?_, hmoves.faces.condition first ▸ hconditional, hmoves.faces.condition card ▸ hblank⟩
    rw [hcatalog]
    exact Catalog.exists_queue_discarded hqueue hother hcard
  refine hmoves.contends hprecedes hmoves.store ?_ ?_
  · rw [hcatalog]
    exact Catalog.pool_edit nofun
  · rw [hcatalog, Catalog.card_discarded_of_ne _ hother, Catalog.card, Catalog.cards_edit_chain,
      Catalog.card]

end Session

/-! ## Sessions -/

namespace Service

open Session

variable {service : Service} {request : CreateRequest} {start : Game} {calls : List Call}

/-- A selection is accepted, in a session in which every control that was pressed since the card was
presented has been refused; the effects of the action have been carried out, and the last one of its
special effects chains a card without a condition.  When another special effect has not taken the first
card out of the queue before, this is the card that is resolved.  Then the chained card is presented
next, and likewise when it was in front itself; but when another card without a condition was in front,
that one is presented, and when one with a condition was in front, that condition decides between the
two.  A fault that breaks off the check of the conditions leaves no card presented. -/
theorem chained_presented (fresh : service.find? service.nextId = none)
    (built : Session.buildGame request.deck service.settings (service.chance request.seed) =
      .ok start) (h : Unpressed service request calls) :
    ∃ before, service.played? request calls = some before ∧
      ∀ (answer : SelectRequest) opened earlier text card,
        ((Operation.select answer.choice).opening silent).run.run before =
          (.ok (earlier ++ [text]), opened) →
        let chaining := last opened (specialMoments earlier opened)
        chained? text chaining = some card →
        isBlankText (before.catalog.card card).condition = true →
        ∃ key first after, before.scheduler.current = some key ∧
          chaining.catalog.head? = some first ∧
          service.played? request (calls ++ [.select answer]) = some after ∧
          ((∀ one ∈ specialMoments earlier opened, ¬one.Clears) → first = key) ∧
          (first = key ∨ first = card → GoesOnTo (.select answer) before card after) ∧
          (first ≠ key → first ≠ card → isBlankText (before.catalog.card first).condition = true →
            GoesOnTo (.select answer) before first after) ∧
          (first ≠ key → card ≠ key → isBlankText (before.catalog.card first).condition = false →
            Contends (.select answer) before chaining first card after) := by
  obtain ⟨before, hbefore, hshows⟩ := showsHead_of_unpressed fresh built h
  refine ⟨before, hbefore, fun answer opened earlier text card hopening => ?_⟩
  intro chaining hchained hblank
  have htexts : earlier ++ [text] ≠ [] := by simp
  obtain ⟨key, action, between, haccepted, -⟩ := exists_accepted_of_opening hopening htexts
  have hready := Accepts.ready ⟨_, _, haccepted⟩
  have hkey : before.scheduler.current = some key := hready.2.2
  obtain ⟨first, hfirst⟩ := exists_head_of_chained hchained
  obtain ⟨after, hafter, generator, rfl⟩ := played?_looked hbefore (.select answer)
  -- Which card is in front when the last text chains decides everything: the resolved card, the chained
  -- one, or another one without or with a condition.
  refine ⟨key, first, _, hkey, hfirst, hafter, fun hcalm => ?_, fun hfront => ?_, fun hne _ => ?_,
    fun hne hcard hconditional => ?_⟩
  · have hhead : opened.catalog.head? = some key := by
      rw [catalog_opening hopening htexts, ← hshows (.inr hready.1)]
      exact hkey
    have hsplit : specialMoments earlier opened = specialMoments earlier opened ++ [] :=
      (List.append_nil _).symm
    exact Option.some.inj (hfirst.symm.trans (head?_last hhead hsplit hcalm).1)
  · have hnext : card = if first = key then card else first := by
      split
      · rfl
      · next hne => exact (hfront.resolve_left hne).symm
    exact goesOnTo_chained hopening hchained hkey hfirst hnext hblank
  · exact goesOnTo_chained hopening hchained hkey hfirst (if_neg hne).symm
  · obtain ⟨heither, hholds, hfails⟩ :=
      contends_chained hopening hchained hkey hfirst hne hcard hconditional hblank
    exact ⟨heither, hholds, hfails⟩

/-- What is seen of a game when the first choice is going to be made: the special effects of its action,
the card that the last one will chain, whether the last card has no condition, and what was presented. -/
def prospect (earlier : List String) (text : String) (game : Game) :
    Option (List String) × Option Nat × Bool × List Nat :=
  let (texts, opened) := ((Operation.select (.action 0)).opening silent).run.run game
  (texts.toOption, chained? text (last opened (specialMoments earlier opened)),
    isBlankText (game.catalog.card 2).condition, game.scheduler.presented)

theorem exists_opened_of_prospect {game : Game} {earlier texts : List String} {text : String}
    {chained : Option Nat} {presented : List Nat}
    (h : prospect earlier text game = (some texts, chained, true, presented)) :
    ∃ opened, ((Operation.select (.action 0)).opening silent).run.run game = (.ok texts, opened) ∧
      chained? text (last opened (specialMoments earlier opened)) = chained ∧
      isBlankText (game.catalog.card 2).condition = true ∧ game.scheduler.presented = presented := by
  rw [prospect] at h
  rcases hrun : ((Operation.select (.action 0)).opening silent).run.run game with ⟨fault | found, opened⟩
  · rw [hrun] at h
    cases congrArg Prod.fst h
  · rw [hrun] at h
    obtain ⟨htexts, h⟩ := Prod.mk.inj h
    obtain ⟨hchained, h⟩ := Prod.mk.inj h
    obtain ⟨hblank, hpresented⟩ := Prod.mk.inj h
    cases htexts
    exact ⟨opened, rfl, hchained, hblank, hpresented⟩

/-- A card that is chained alone comes next. -/
theorem leaving_chained :
    ∃ before after, Unpressed empty (leaving ["chain(c)"]) [.reveal] ∧
      empty.played? (leaving ["chain(c)"]) [.reveal] = some before ∧
      empty.played? (leaving ["chain(c)"]) [.reveal, .select ⟨some 0⟩] = some after ∧
      GoesOnTo (.select ⟨some 0⟩) before 2 after := by
  obtain ⟨start, hbuilt⟩ : ∃ start, Session.buildGame (leaving ["chain(c)"]).deck empty.settings
      (empty.chance (leaving ["chain(c)"]).seed) = .ok start :=
    Session.exists_buildGame _ (by decide +kernel)
  have hunpressed : Unpressed empty (leaving ["chain(c)"]) [.reveal] := unpressed_of_forall (by simp)
  obtain ⟨before, hbefore, hselect⟩ := chained_presented fresh_empty hbuilt hunpressed
  have hseen : (empty.played? (leaving ["chain(c)"]) [.reveal]).map (prospect [] "chain(c)") =
      some (some ["chain(c)"], some 2, true, [0]) := by
    decide +kernel
  rw [hbefore] at hseen
  obtain ⟨opened, hopening, hchained, hblank, -⟩ := exists_opened_of_prospect (Option.some.inj hseen)
  obtain ⟨key, first, after, -, -, hafter, hfirst, hnext, -, -⟩ :=
    hselect ⟨some 0⟩ opened [] "chain(c)" 2 hopening hchained hblank
  have hnone : specialMoments [] opened = [] := rfl
  have hfront : first = key := hfirst fun one hone => by simp [hnone] at hone
  exact ⟨before, after, hunpressed, hbefore, hafter, hnext (.inl hfront)⟩

/-- When the resolved card is destroyed first, a chain that is carried out puts its card behind another
one, which is presented. -/
theorem leaving_chained_behind :
    ∃ before opened after, Unpressed empty (leaving ["destroy", "chain(c)"]) [.reveal] ∧
      empty.played? (leaving ["destroy", "chain(c)"]) [.reveal] = some before ∧
      ((Operation.select (.action 0)).opening silent).run.run before =
        (.ok ["destroy", "chain(c)"], opened) ∧
      chained? "chain(c)" (last opened (specialMoments ["destroy"] opened)) = some 2 ∧
      isBlankText (before.catalog.card 2).condition = true ∧
      empty.played? (leaving ["destroy", "chain(c)"]) [.reveal, .select ⟨some 0⟩] = some after ∧
      before.scheduler.presented = [0] ∧ after.scheduler.presented = [1, 0] := by
  have hseen : (empty.played? (leaving ["destroy", "chain(c)"]) [.reveal]).map
      (prospect ["destroy"] "chain(c)") =
        some (some ["destroy", "chain(c)"], some 2, true, [0]) := by
    decide +kernel
  have hlater : (empty.played? (leaving ["destroy", "chain(c)"])
      [.reveal, .select ⟨some 0⟩]).map (·.scheduler.presented) = some [1, 0] := by
    decide +kernel
  obtain ⟨before, hbefore, hseen⟩ := Option.map_eq_some_iff.mp hseen
  obtain ⟨after, hafter, hpresented⟩ := Option.map_eq_some_iff.mp hlater
  obtain ⟨opened, hopening, hchained, hblank, hfirst⟩ := exists_opened_of_prospect hseen
  exact ⟨before, opened, after, unpressed_of_forall (by simp), hbefore, hopening, hchained, hblank,
    hafter, hfirst, hpresented⟩

end Service

end EventDeck
