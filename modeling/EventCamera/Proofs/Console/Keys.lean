import EventCamera.Camera.Synthetic
import EventCamera.Console.Loop
import EventCamera.Proofs.Console.Effects
import EventCamera.Proofs.Console.Language
/-!
# A line of keys

`Console.line_key_by_key`: a line without `n` is its keys, typed one after the other as lines of their own until one of
them leaves shutdown requested. A key whose command fails shows why, and the keys after it count as before.

Both sides are the commands of the keys in order: for the line by `handleLine_of_keys`, and for the keys typed one after
the other by `typeKeys_eq_runCommands`.
-/

namespace EventCamera

/-- The key `n` begins a bias line or a question, and does so in either case. -/
def NoNameKey (keys : List Char) : Prop := ∀ key ∈ keys, ¬ (key = 'n' ∨ key = 'N')

theorem NoNameKey.tail {key : Char} {keys : List Char} (h : NoNameKey (key :: keys)) : NoNameKey keys :=
  fun k hk => h k (List.mem_cons_of_mem key hk)

theorem NoNameKey.head {key : Char} {keys : List Char} (h : NoNameKey (key :: keys)) : NoNameKey [key] := by
  intro k hk
  exact h k (List.mem_singleton.1 hk ▸ List.mem_cons_self)

/-- A line without `n` is read as keys. -/
theorem LineReader.read_of_noNameKey {line : String} (h : NoNameKey line.toList) :
    read ⟨false⟩ line = (readKeys line.toList, ⟨false⟩) := by
  rw [read, readTrimmed_other, readKeys_trim]
  intro n hn
  exact h n (mem_of_mem_trim (List.mem_of_mem_head? hn))

/-- A command that fails does not stop the program. -/
theorem Desk.Effect.running_of_error {δ : Type} [BiasFacility δ] {d d' : Desk δ} {c : Command} {e : CommandError}
    (h : d.Effect c (.error e) d') : d'.shared.control.running = d.shared.control.running := by
  cases h <;> rfl

namespace Console

variable {δ : Type} [BiasFacility δ] {c : Console δ}

/-- Types the keys one after the other, each as a line of its own, until shutdown is requested. -/
def typeKeys : List Char → Console δ → List String × Console δ
  | [], c => ([], c)
  | key :: keys, c =>
    match c.handleLine (String.singleton key) with
    | (shown, c) =>
      if c.desk.shared.control.running then
        match typeKeys keys c with
        | (more, c) => (shown ++ more, c)
      else (shown, c)

/-- The console is running, and the next line is not read as a name. -/
structure Ready (c : Console δ) : Prop where
  running : c.desk.shared.control.running = true
  reader : c.reader = ⟨false⟩

/-- The console after its desk has carried out commands. -/
def after (c : Console δ) (result : List String × Desk δ) : List String × Console δ :=
  (result.1, { c with desk := result.2 })

theorem handleLine_of_keys (hreader : c.reader = ⟨false⟩) {line : String} (h : NoNameKey line.toList) :
    c.handleLine line = c.after (runCommands (line.toList.filterMap Command.ofKey?) c.desk) := by
  rw [handleLine, hreader, LineReader.read_of_noNameKey h]
  by_cases hkeys : line.toList.filterMap Command.ofKey? = []
  · rw [LineReader.readKeys_eq_nothing hkeys, hkeys, ← hreader]
    rfl
  · rw [LineReader.readKeys_eq_commands hkeys, ← hreader]
    rfl

/-- One command, and the others if it leaves the program running. -/
theorem runCommands_cons (command : Command) (rest : List Command) (d : Desk δ) :
    runCommands (command :: rest) d =
      if (d.handle command).2.shared.control.running then
        (replyLines (d.handle command).1 ++ (runCommands rest (d.handle command).2).1,
          (runCommands rest (d.handle command).2).2)
      else (replyLines (d.handle command).1, (d.handle command).2) := rfl

theorem runCommands_singleton (command : Command) (d : Desk δ) :
    runCommands [command] d = (replyLines (d.handle command).1, (d.handle command).2) := by
  rw [runCommands_cons]
  split
  · rw [runCommands, List.append_nil]
  · rfl

/-- A key on a line of its own. -/
theorem handleLine_singleton (hreader : c.reader = ⟨false⟩) {key : Char} (h : NoNameKey [key]) :
    c.handleLine (String.singleton key) =
      match Command.ofKey? key with
      | none => ([], c)
      | some command => (replyLines (c.desk.handle command).1, { c with desk := (c.desk.handle command).2 }) := by
  have hline : (String.singleton key).toList = [key] := String.toList_singleton key
  rw [handleLine_of_keys hreader (hline ▸ h), hline]
  cases hkey : Command.ofKey? key with
  | none =>
    rw [List.filterMap_cons_none hkey]
    rfl
  | some command =>
    rw [List.filterMap_cons_some hkey, List.filterMap_nil, runCommands_singleton]
    rfl

/-- Keys typed one after the other carry out their commands. -/
theorem typeKeys_eq_runCommands (hc : c.Ready) {keys : List Char} (h : NoNameKey keys) :
    c.typeKeys keys = c.after (runCommands (keys.filterMap Command.ofKey?) c.desk) := by
  induction keys generalizing c with
  | nil => rfl
  | cons key keys ih =>
    rw [typeKeys, handleLine_singleton hc.reader h.head]
    cases hkey : Command.ofKey? key with
    | none =>
      rw [List.filterMap_cons_none hkey]
      dsimp only
      rw [if_pos hc.running, ih hc h.tail]
      rfl
    | some command =>
      rw [List.filterMap_cons_some hkey, runCommands_cons]
      dsimp only
      split
      · next hrunning =>
        rw [ih (c := { c with desk := (c.desk.handle command).2 }) ⟨hrunning, hc.reader⟩ h.tail]
        rfl
      · rfl

/-- Typing goes on where it has got to, unless shutdown is requested by then. -/
theorem typeKeys_append (hrunning : c.desk.shared.control.running = true) (keys rest : List Char) :
    c.typeKeys (keys ++ rest) =
      if (c.typeKeys keys).2.desk.shared.control.running then
        ((c.typeKeys keys).1 ++ ((c.typeKeys keys).2.typeKeys rest).1, ((c.typeKeys keys).2.typeKeys rest).2)
      else c.typeKeys keys := by
  induction keys generalizing c with
  | nil => simp [typeKeys, hrunning]
  | cons key keys ih =>
    simp only [List.cons_append, typeKeys]
    by_cases hnext : (c.handleLine (String.singleton key)).2.desk.shared.control.running = true
    · simp only [if_pos hnext, ih hnext]
      split <;> simp
    · simp only [if_neg hnext]

/-- A key whose command fails shows why, and typing goes on. -/
theorem typeKeys_of_failed (hc : c.Ready) {key : Char} (hkey : NoNameKey [key]) {command : Command}
    (hcommand : Command.ofKey? key = some command) {e : CommandError} {d : Desk δ}
    (hfailed : c.desk.handle command = (.error e, d)) (rest : List Char) :
    c.typeKeys (key :: rest) =
      ((if e.isNotice then e.message else "Error: " ++ e.message) :: (typeKeys rest { c with desk := d }).1,
        (typeKeys rest { c with desk := d }).2) := by
  have heffect := Desk.effect_handle command c.desk
  rw [hfailed] at heffect
  have hrunning : d.shared.control.running = true := heffect.running_of_error.trans hc.running
  have hlines : replyLines (.error e) = [if e.isNotice then e.message else "Error: " ++ e.message] := by
    rw [replyLines]
    split <;> rfl
  rw [typeKeys, handleLine_singleton hc.reader hkey, hcommand]
  dsimp only
  rw [hfailed, hlines]
  simp only [if_pos hrunning]
  rfl

/-- A line of keys is its keys one by one. On a console that is running and does not wait for a name, a line without
`n` shows the same and leaves the same behind as its keys typed one after the other, as lines of their own, until one
leaves shutdown requested. A key on the way whose command fails shows its message, and the keys after it are typed
where the command has left the desk. -/
theorem line_key_by_key (hc : c.Ready) {line : String} (h : NoNameKey line.toList) :
    c.handleLine line = c.typeKeys line.toList ∧
    ∀ keys key rest command e d, line.toList = keys ++ key :: rest → Command.ofKey? key = some command →
      let before := c.typeKeys keys
      before.2.desk.shared.control.running = true → before.2.desk.handle command = (.error e, d) →
      let message := if e.isNotice then e.message else "Error: " ++ e.message
      let after := typeKeys rest { before.2 with desk := d }
      c.handleLine line = (before.1 ++ message :: after.1, after.2) := by
  have hline : c.handleLine line = c.typeKeys line.toList := by
    rw [handleLine_of_keys hc.reader h, typeKeys_eq_runCommands hc h]
  refine ⟨hline, ?_⟩
  intro keys key rest command e d hsplit hcommand before hrunning hfailed message after
  rw [hsplit] at h
  have hkeys : NoNameKey keys := fun k hk => h k (List.mem_append_left _ hk)
  have hkey : NoNameKey [key] := fun k hk => h k (by simp [List.mem_singleton.1 hk])
  have hready : before.2.Ready := ⟨hrunning, by
    rw [show before = c.typeKeys keys from rfl, typeKeys_eq_runCommands hc hkeys]
    exact hc.reader⟩
  rw [hline, hsplit, typeKeys_append hc.running, if_pos hrunning, typeKeys_of_failed hready hkey hcommand hfailed]

/-- Without a camera the first key fails and the second one stops the program, so that the last one does nothing. -/
theorem line_key_by_key_quit :
    let c : Console MemoryBiases := .new ⟨.initial 4, .new Synthetic.disconnected ⟨"out"⟩⟩
    NoNameKey " oqh".toList ∧ c.handleLine " oqh" = c.typeKeys " oqh".toList ∧
    (c.handleLine " oqh").1 = ["Error: device unavailable: no camera detected", "Exit requested."] := by
  intro c
  have hkeys : NoNameKey " oqh".toList := by simp [NoNameKey]
  obtain ⟨hline, hfailed⟩ := line_key_by_key (c := c) ⟨rfl, rfl⟩ hkeys
  have hopen := hfailed [' '] 'o' ['q', 'h'] .acquisitionOn (.source (.deviceUnavailable "no camera detected")) _
    rfl rfl rfl rfl
  exact ⟨hkeys, hline, by rw [hopen]; rfl⟩

end Console

end EventCamera
