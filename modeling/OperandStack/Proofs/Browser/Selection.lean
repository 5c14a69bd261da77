import Mathlib.Data.List.Infix
import OperandStack.Browser

/-!
# What the browser shows

However the browser is driven, it shows the methods that pass the filter, the selection is
one of them if there are any, and a listing is shown only if there are. So the unchecked
look-ups of the selected method never fail: every message leads to a next state, and every
state can be shown. Nothing is taken for granted of the line in which the filter is edited:
where a message is handed to it, it may come to hold any text.
-/

namespace OperandStack

/-- Whether a message brings what was loaded. -/
def BrowserMessage.isLoaded : BrowserMessage → Bool
  | .loaded _ => true
  | _ => false

namespace Browser

variable {b next : Browser}

/-- The search for a pattern finds it wherever it stands. -/
theorem occursIn_iff {pattern cs : List Char} : occursIn pattern cs = true ↔ pattern <:+: cs := by
  induction cs with
  | nil => simp [occursIn]
  | cons c rest ih =>
    rw [occursIn, Bool.or_eq_true, ih, List.isPrefixOf_iff_prefix, List.infix_cons_iff]

/-- A method passes a filter exactly if its name holds the filter, both in lower case. -/
theorem passes_iff {filter : String} {m : MethodCode} : passes filter m = true ↔
    (Text.lower filter).toList <:+: (Text.lower m.method.name).toList := by
  rw [passes, Bool.or_eq_true, occursIn_iff, decide_eq_true_iff, or_iff_right_iff_imp]
  rintro rfl
  simp [Text.lower]

/-- The state that a message leads to. It is the one that the browser goes to by itself, or one with
another text in the filter line if the message concerns that line. -/
inductive Follows (b : Browser) : BrowserMessage → Browser → Prop where
  | step (message : BrowserMessage) : Follows b message (b.step message).1
  /-- A key that is handed to the line. -/
  | edited {k : Key} (hmode : b.mode = .filter) (hkey : k ∉ [.interrupt, .enter, .escape])
      (line : InputLine) : Follows b (.key k) (refresh { b with input := line })
  /-- The key that sets the text of the line. -/
  | cleared (hmode : b.mode = .filter) (line : InputLine) :
      Follows b (.key .escape) { refresh { b with input := line } with mode := .select }

/-- The states that messages lead to, one after another. -/
inductive Run (start : Browser) : List BrowserMessage → Browser → Prop where
  | nil : Run start [] start
  | concat {messages : List BrowserMessage} {b next : Browser} {message : BrowserMessage}
      (run : Run start messages b) (h : b.Follows message next) :
      Run start (messages ++ [message]) next

/-- The methods shown are those that pass the filter, and the selection can be looked up. -/
structure Consistent (b : Browser) : Prop where
  visible_eq : b.visible = b.methods.filter (passes b.filter)
  cursor_nonneg : 0 ≤ b.cursor
  cursor_lt : b.visible ≠ [] → b.cursor < b.visible.length
  visible_of_listing : b.mode = .listing → b.visible ≠ []

/-- The browser starts with an empty list and its cursor on the first line. -/
theorem consistent_initial (file : String) : (initial file).Consistent where
  visible_eq := rfl
  cursor_nonneg := Int.le_refl 0
  cursor_lt h := absurd rfl h
  visible_of_listing h := by cases h

/-- The line of the selection is where the cursor stands. -/
theorem Consistent.selected_eq (h : b.Consistent) : (b.selected : Int) = b.cursor :=
  Int.toNat_of_nonneg h.cursor_nonneg

/-- As long as methods are shown, the selected one is found. -/
theorem Consistent.exists_current (h : b.Consistent) (hvisible : b.visible ≠ []) :
    ∃ m, b.visible[b.selected]? = some m ∧ b.current? = some m := by
  have hlt : b.selected < b.visible.length := by
    have hcursor := h.cursor_lt hvisible
    have hselected := h.selected_eq
    omega
  refine ⟨_, List.getElem?_eq_getElem hlt, ?_⟩
  rw [current?, if_neg (Int.not_lt.mpr h.cursor_nonneg), List.getElem?_eq_getElem hlt]

/-- Filtering anew makes all right but the mode. -/
theorem consistent_refresh (hcursor : 0 ≤ b.cursor) (hmode : b.mode ≠ .listing) :
    b.refresh.Consistent where
  visible_eq := rfl
  cursor_nonneg := by
    simp only [refresh]
    split
    · exact Int.le_max_right _ 0
    · exact hcursor
  cursor_lt hvisible := by
    have hpos := List.length_pos_iff.mpr hvisible
    simp only [refresh] at hpos ⊢
    split <;> omega
  visible_of_listing hlisting := absurd hlisting hmode

/-- Leaving a listing, or editing the filter, touches nothing but the mode. -/
theorem Consistent.inMode (h : b.Consistent) {mode : BrowserMode} (hmode : mode ≠ .listing) :
    Consistent { b with mode } :=
  ⟨h.visible_eq, h.cursor_nonneg, h.cursor_lt, fun hlisting => absurd hlisting hmode⟩

/-- The cursor stops at the first line. -/
theorem Consistent.moveUp (h : b.Consistent) : b.moveUp.Consistent := by
  unfold Browser.moveUp
  split
  · next hpos =>
    refine ⟨h.visible_eq, ?_, fun hvisible => ?_, h.visible_of_listing⟩
    · exact Int.le_sub_one_of_lt hpos
    · exact Int.lt_trans (Int.sub_lt_self _ Int.zero_lt_one) (h.cursor_lt hvisible)
  · exact h

/-- The cursor stops at the last line. -/
theorem Consistent.moveDown (h : b.Consistent) : b.moveDown.Consistent := by
  unfold Browser.moveDown
  split
  · next hlt =>
    refine ⟨h.visible_eq, ?_, fun _ => ?_, h.visible_of_listing⟩
    · exact Int.le_trans h.cursor_nonneg (Int.le_add_one (Int.le_refl _))
    · exact Int.add_lt_of_lt_sub_right hlt
  · exact h

/-- Opening a listing finds its method. -/
theorem Consistent.showSelected (h : b.Consistent) (hvisible : b.visible ≠ []) :
    ∃ m, b.visible[b.selected]? = some m ∧ b.showSelected? =
      some { b with window := b.window.display (m.bodyText true true), mode := .listing } := by
  obtain ⟨m, hm, hcurrent⟩ := h.exists_current hvisible
  refine ⟨m, hm, ?_⟩
  rw [showSelected?, hcurrent]
  rfl

/-- Whether a state is consistent and has the methods of another. -/
def Keeps (b next : Browser) : Prop := next.Consistent ∧ next.methods = b.methods

/-- What a key does in the list: it moves the selection within the list, starts an edit of the
filter, or shows the selected method. None of this fails. -/
theorem Consistent.pressInList (h : b.Consistent) (k : Key) :
    ∃ next, b.pressInList? k = some next ∧ b.Keeps next := by
  have hup : b.Keeps b.moveUp := by
    refine ⟨h.moveUp, ?_⟩
    unfold Browser.moveUp
    split <;> rfl
  have hdown : b.Keeps b.moveDown := by
    refine ⟨h.moveDown, ?_⟩
    unfold Browser.moveDown
    split <;> rfl
  unfold pressInList?
  split
  · exact ⟨_, rfl, hup⟩
  · exact ⟨_, rfl, hup⟩
  · exact ⟨_, rfl, hdown⟩
  · exact ⟨_, rfl, hdown⟩
  · exact ⟨_, rfl, h.inMode (by decide), rfl⟩
  · split
    · exact ⟨b, rfl, h, rfl⟩
    · next hvisible =>
      have hne : b.visible ≠ [] := by simpa using hvisible
      obtain ⟨m, _, hshown⟩ := h.showSelected hne
      exact ⟨_, hshown, ⟨h.visible_eq, h.cursor_nonneg, h.cursor_lt, fun _ => hne⟩, rfl⟩
  · exact ⟨b, rfl, h, rfl⟩

/-- Keys in the listing scroll or go back; the selection stays. -/
theorem Consistent.pressInListing (h : b.Consistent) (k : Key) : b.Keeps (b.pressInListing k) := by
  unfold Browser.pressInListing
  split
  · exact ⟨h.inMode (by decide), rfl⟩
  · exact ⟨⟨h.visible_eq, h.cursor_nonneg, h.cursor_lt, h.visible_of_listing⟩, rfl⟩

/-- Whatever text the filter line comes to hold, the list is filtered by it. -/
theorem Consistent.edited (h : b.Consistent) (hmode : b.mode = .filter) (line : InputLine) :
    (refresh { b with input := line }).Consistent :=
  consistent_refresh h.cursor_nonneg (by rw [hmode]; decide)

/-- The filter is left with the list that its last line lets through. -/
theorem Consistent.cleared (h : b.Consistent) (hmode : b.mode = .filter) (line : InputLine) :
    Consistent { refresh { b with input := line } with mode := .select } :=
  (h.edited hmode line).inMode (by decide)

/-- Keys in the filter edit its line or leave it. -/
theorem Consistent.pressInFilter (h : b.Consistent) (hmode : b.mode = .filter) (k : Key) :
    b.Keeps (b.pressInFilter k).1 := by
  unfold Browser.pressInFilter
  split
  · exact ⟨h, rfl⟩
  · exact ⟨h.inMode (by decide), rfl⟩
  · exact ⟨h.cleared hmode _, rfl⟩
  · exact ⟨h.edited hmode _, rfl⟩
  · exact ⟨h.edited hmode _, rfl⟩
  · exact ⟨h.edited hmode _, rfl⟩

/-- No key fails, in whatever mode it is pressed. -/
theorem Consistent.press (h : b.Consistent) (k : Key) :
    ∃ next left, b.press? k = some (next, left) ∧ b.Keeps next := by
  unfold press?
  split
  · next hmode => exact ⟨_, _, rfl, h.pressInFilter hmode k⟩
  · split
    · exact ⟨b, true, rfl, h, rfl⟩
    · obtain ⟨next, hnext, hkeeps⟩ := h.pressInList k
      exact ⟨next, false, by rw [hnext, Option.map_some], hkeeps⟩
  · split
    · exact ⟨b, true, rfl, h, rfl⟩
    · exact ⟨_, false, rfl, h.pressInListing k⟩

/-- What was loaded is taken over while no listing is shown. -/
theorem Consistent.load (h : b.Consistent) (hmethods : b.methods = [])
    (outcome : Except Error AssembledType) : (b.load outcome).Consistent := by
  have hmode : b.mode ≠ .listing := by
    intro hlisting
    refine h.visible_of_listing hlisting ?_
    rw [h.visible_eq, hmethods, List.filter_nil]
  cases outcome with
  | error e => exact ⟨h.visible_eq, h.cursor_nonneg, h.cursor_lt, h.visible_of_listing⟩
  | ok a => exact consistent_refresh h.cursor_nonneg hmode

/-- Every message leads to a next state. It is consistent as long as nothing is loaded over methods
that are there already, and methods come in by loading only. -/
theorem Consistent.step (h : b.Consistent) (message : BrowserMessage) :
    ∃ next left, b.step? message = some (next, left) ∧
      ((message.isLoaded = true → b.methods = []) → next.Consistent) ∧
      (message.isLoaded = false → next.methods = b.methods) := by
  cases message with
  | resize width height =>
    exact ⟨_, _, rfl, fun _ => ⟨h.visible_eq, h.cursor_nonneg, h.cursor_lt, h.visible_of_listing⟩,
      fun _ => rfl⟩
  | loaded outcome =>
    exact ⟨_, _, rfl, fun hload => h.load (hload rfl) outcome, fun hmessage => by cases hmessage⟩
  | key k =>
    obtain ⟨next, left, hnext, hconsistent, hmethods⟩ := h.press k
    exact ⟨next, left, hnext, fun _ => hconsistent, fun _ => hmethods⟩
  | nothing => exact ⟨b, false, rfl, fun _ => h, fun _ => rfl⟩

/-- No message meets a failing look-up. -/
theorem Consistent.step?_eq (h : b.Consistent) (message : BrowserMessage) :
    b.step? message = some (b.step message) := by
  obtain ⟨next, left, hnext, _⟩ := h.step message
  rw [Browser.step, hnext, Option.getD_some]

/-- One message, handed to the filter line or not. -/
theorem Consistent.follows (h : b.Consistent) {message : BrowserMessage}
    (hnext : b.Follows message next) :
    ((message.isLoaded = true → b.methods = []) → next.Consistent) ∧
      (message.isLoaded = false → next.methods = b.methods) := by
  cases hnext with
  | step =>
    obtain ⟨next, left, hstep, hkept⟩ := h.step message
    rw [Browser.step, hstep, Option.getD_some]
    exact hkept
  | edited hmode _ line => exact ⟨fun _ => h.edited hmode line, fun _ => rfl⟩
  | cleared hmode line => exact ⟨fun _ => h.cleared hmode line, fun _ => rfl⟩

/-- A listing shows its method, below which the window stands. -/
theorem Consistent.content (h : b.Consistent) (hmode : b.mode = .listing) :
    ∃ m, b.visible[b.selected]? = some m ∧ b.content? = some (m.heading true ++ "\n\n" ++
      b.window.text ++ "\n↑/↓ scroll • esc back • q quit") := by
  obtain ⟨m, hm, hcurrent⟩ := h.exists_current (h.visible_of_listing hmode)
  refine ⟨m, hm, ?_⟩
  rw [content?, hmode]
  simp only [hcurrent, Option.bind_eq_bind, Option.bind_some]
  rfl

/-- Every state can be shown. -/
theorem Consistent.view?_eq (h : b.Consistent) : b.view? = some b.view := by
  have hcontent : ∃ text, b.content? = some text := by
    cases hmode : b.mode with
    | listing =>
      obtain ⟨m, _, htext⟩ := h.content hmode
      exact ⟨_, htext⟩
    | filter => exact ⟨_, by rw [content?, hmode]⟩
    | select => exact ⟨_, by rw [content?, hmode]⟩
  obtain ⟨text, htext⟩ := hcontent
  have hview : ∃ shown, b.view? = some shown := by
    unfold view?
    split
    · exact ⟨_, rfl⟩
    · exact ⟨_, rfl⟩
    · rw [htext]
      exact ⟨_, rfl⟩
  obtain ⟨shown, hshown⟩ := hview
  rw [view, hshown, Option.getD_some]

/-- Messages of which at most one brings something loaded keep the browser consistent. -/
theorem Run.consistent {file : String} {messages : List BrowserMessage}
    (run : Run (initial file) messages b) (hload : messages.countP BrowserMessage.isLoaded ≤ 1) :
    b.Consistent ∧ (messages.countP BrowserMessage.isLoaded = 0 → b.methods = []) := by
  induction run with
  | nil => exact ⟨consistent_initial file, fun _ => rfl⟩
  | @concat messages b next message run hnext ih =>
    rw [List.countP_append, List.countP_singleton] at hload ⊢
    obtain ⟨hconsistent, hmethods⟩ := ih (by omega)
    constructor
    · refine (hconsistent.follows hnext).1 fun hmessage => hmethods ?_
      rw [if_pos hmessage] at hload
      omega
    · intro hnone
      have hmessage : message.isLoaded = false := by
        by_contra htrue
        rw [Bool.not_eq_false] at htrue
        rw [if_pos htrue] at hnone
        omega
      rw [(hconsistent.follows hnext).2 hmessage]
      exact hmethods (by omega)

/-- After any messages of which at most one brings something loaded, the browser shows exactly the
methods that pass the filter, in order. The cursor has not run out of the list at its start, nor at
its end if there are methods in it, so the selected method is found where it is looked up without a
check: when its listing is opened, and as long as that is shown. No message fails, and neither does
showing the browser. -/
theorem run_shows_filtered {file : String} {messages : List BrowserMessage} {b : Browser}
    (run : Run (initial file) messages b) (hload : messages.countP BrowserMessage.isLoaded ≤ 1) :
    b.visible = b.methods.filter (fun m =>
        (Text.lower b.filter).toList <:+: (Text.lower m.method.name).toList) ∧
      (b.filter = "" → b.visible = b.methods) ∧
      0 ≤ b.cursor ∧
      (b.visible ≠ [] → b.cursor < b.visible.length ∧ b.selected < b.visible.length) ∧
      (b.mode = .listing → b.visible ≠ []) ∧
      (b.mode = .listing → ∃ m, b.visible[b.selected]? = some m ∧
        b.content? = some (m.heading true ++ "\n\n" ++ b.window.text ++
          "\n↑/↓ scroll • esc back • q quit")) ∧
      (b.mode = .select → b.visible ≠ [] → ∃ m, b.visible[b.selected]? = some m ∧
        b.step? (.key .enter) = some
          ({ b with window := b.window.display (m.bodyText true true), mode := .listing }, false)) ∧
      (∀ message, b.step? message = some (b.step message)) ∧
      b.view? = some b.view := by
  have hconsistent := (run.consistent hload).1
  refine ⟨?_, ?_, hconsistent.cursor_nonneg, ?_, hconsistent.visible_of_listing,
    hconsistent.content, ?_, hconsistent.step?_eq, hconsistent.view?_eq⟩
  · rw [hconsistent.visible_eq]
    refine List.filter_congr fun m _ => ?_
    rw [Bool.eq_iff_iff, passes_iff, decide_eq_true_iff]
  · intro hempty
    rw [hconsistent.visible_eq, List.filter_eq_self]
    intro m _
    simp [passes, hempty]
  · intro hvisible
    have hcursor := hconsistent.cursor_lt hvisible
    have hselected := hconsistent.selected_eq
    exact ⟨hcursor, by omega⟩
  · intro hmode hvisible
    obtain ⟨m, hm, hshown⟩ := hconsistent.showSelected hvisible
    refine ⟨m, hm, ?_⟩
    simp [step?, press?, hmode, pressInList?, hvisible, hshown]

/-- A filter in capitals, typed before the methods are there: of two methods only the one is shown
that passes it, and its listing can be opened. -/
theorem run_shows_filtered_setter :
    let owner : TypeDesc := .ofClass "a/Counter" .isPublic (some .object) []
    let method (name : String) : MethodCode :=
      ⟨⟨owner, name, .isPublic, .void, []⟩, .zero, .empty, #[], none⟩
    let a : AssembledType := ⟨⟨owner, [], []⟩, [method "getCount", method "setCount"]⟩
    let messages : List BrowserMessage :=
      [.key (.typed "/"), .key (.typed "SET"), .loaded (.ok a), .key .enter]
    ∃ b, Run (initial "counter.toml") messages b ∧
      messages.countP BrowserMessage.isLoaded ≤ 1 ∧
      b.visible = [method "setCount"] ∧ b.selected < b.visible.length ∧
      ((b.step? (.key .enter)).map fun next => next.1.mode) = some .listing := by
  intro owner method a messages
  let edited := (((initial "counter.toml").step (.key (.typed "/"))).1.step (.key (.typed "SET"))).1
  let b := ((edited.step (.loaded (.ok a))).1.step (.key .enter)).1
  have run : Run (initial "counter.toml") messages b :=
    (((Run.nil.concat (.step _)).concat (.step _)).concat (.step _)).concat (.step _)
  have hload : messages.countP BrowserMessage.isLoaded ≤ 1 := by decide
  obtain ⟨hvisible, _, _, hselected, _, _, henter, _⟩ := run_shows_filtered run hload
  have hfilter : b.filter = "SET" := rfl
  have hmethods : b.methods = [method "getCount", method "setCount"] := rfl
  have hmode : b.mode = .select := rfl
  have hget : ¬ (Text.lower "SET").toList <:+: (Text.lower "getCount").toList := by
    simp only [Text.lower, String.toList_map]
    decide
  have hset : (Text.lower "SET").toList <:+: (Text.lower "setCount").toList := by
    simp only [Text.lower, String.toList_map]
    decide
  have hfound : b.visible = [method "setCount"] := by
    rw [hvisible, hfilter, hmethods, List.filter_cons_of_neg (by simpa using hget),
      List.filter_cons_of_pos (by simpa using hset), List.filter_nil]
  have hne : b.visible ≠ [] := by
    rw [hfound]
    exact List.cons_ne_nil _ _
  obtain ⟨m, _, hshown⟩ := henter hmode hne
  refine ⟨b, run, hload, hfound, (hselected hne).2, ?_⟩
  rw [hshown, Option.map_some]

end Browser

end OperandStack
