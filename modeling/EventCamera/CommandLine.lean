import EventCamera.Settings
/-!
# Command line

Options are given as `--name value` or `--name=value`, flags as `--name`, each at most once. A value
that begins with a dash is taken only if it looks like a number or is a dash alone. Arguments are read
in order, so a request for help counts only if everything before it was well-formed.
-/

namespace EventCamera

structure Options where
  config : Option Path
  windowMicros : Option Int64
  outputDir : Option Path
  statsPath : Option Path
  logLevel : String
  listSources : Bool
  showConfig : Bool
  biasDiff : Option BiasValue
  biasDiffOn : Option BiasValue
  biasDiffOff : Option BiasValue
  biasFo : Option BiasValue
  biasHpf : Option BiasValue
  printBias : Bool
  deriving DecidableEq, Repr

inductive Usage where
  | help
  | version
  /-- The arguments make no sense. -/
  | wrong
  deriving DecidableEq, Repr

namespace Options

def none : Options :=
  ⟨.none, .none, .none, .none, "info", false, false, .none, .none, .none, .none, .none, false⟩

instance : Inhabited Options := ⟨none⟩

/-! ## Values -/

/-- A path, which cannot be empty. -/
def readPath? (s : String) : Option Path := if s.isEmpty then .none else some ⟨s⟩

def readInt64? (s : String) : Option Int64 :=
  (Decimal.readInt? s.toList).bind fun i =>
    if Int64.minValue.toInt ≤ i ∧ i ≤ Int64.maxValue.toInt then some (Int64.ofInt i) else .none

def readInt32? (s : String) : Option Int32 :=
  (Decimal.readInt? s.toList).bind fun i =>
    if Int32.minValue.toInt ≤ i ∧ i ≤ Int32.maxValue.toInt then some (Int32.ofInt i) else .none

/-- Sets the option with the given name; `none` if there is no such option. The result is the options
after it, or nothing if the value makes no sense. -/
def setOption? (name value : String) (o : Options) : Option (Option Options) :=
  match name with
  | "config" => some ((readPath? value).map fun v => { o with config := some v })
  | "window-us" => some ((readInt64? value).map fun v => { o with windowMicros := some v })
  | "output-dir" => some ((readPath? value).map fun v => { o with outputDir := some v })
  | "stats-path" => some ((readPath? value).map fun v => { o with statsPath := some v })
  | "log-level" => some (some { o with logLevel := value })
  | "bias-diff" => some ((readInt32? value).map fun v => { o with biasDiff := some v })
  | "bias-diff-on" => some ((readInt32? value).map fun v => { o with biasDiffOn := some v })
  | "bias-diff-off" => some ((readInt32? value).map fun v => { o with biasDiffOff := some v })
  | "bias-fo" => some ((readInt32? value).map fun v => { o with biasFo := some v })
  | "bias-hpf" => some ((readInt32? value).map fun v => { o with biasHpf := some v })
  | _ => .none

/-- Sets the flag with the given name; `none` if there is no such flag. -/
def setFlag? (name : String) (o : Options) : Option Options :=
  match name with
  | "list-sources" => some { o with listSources := true }
  | "show-config" => some { o with showConfig := true }
  | "print-bias" => some { o with printBias := true }
  | _ => .none

/-! ## Arguments -/

def isExponentMark (c : Char) : Bool := c == 'e' || c == 'E'

/-- Whether the text is digits with at most one point and one exponent, neither in front, and the
exponent not empty. A number after a dash has this form. -/
def looksLikeNumber (cs : List Char) : Bool :=
  let mantissa := cs.takeWhile (!isExponentMark ·)
  let point (cs : List Char) := match cs.dropWhile (· != '.') with
    | [] => cs.all Char.isDigit
    | _ :: rest => cs.head? != some '.' && (cs.takeWhile (· != '.')).all Char.isDigit && rest.all Char.isDigit
  match cs.dropWhile (!isExponentMark ·) with
  | [] => point cs
  | _ :: exponent => !mantissa.isEmpty && point mantissa && !exponent.isEmpty && exponent.all Char.isDigit

/-- Whether an argument can be the value of the option before it. -/
def isValue : List Char → Bool
  | '-' :: '-' :: _ => false
  | '-' :: [] => true
  | '-' :: rest => looksLikeNumber rest
  | _ => true

/-- Splits `name=value`. -/
def splitEquals (cs : List Char) : String × Option String :=
  match cs.dropWhile (· != '=') with
  | [] => (String.ofList cs, .none)
  | _ :: value => (String.ofList (cs.takeWhile (· != '=')), some (String.ofList value))

/-- Reads the arguments one after the other; `used` holds the names that were given already. -/
def readAll : List String → List String → Options → Except Usage Options
  | [], _, o => .ok o
  | arg :: rest, used, o =>
    match arg.toList with
    | ['-', '-'] => if rest.isEmpty then .ok o else .error .wrong
    | '-' :: '-' :: body =>
      match splitEquals body with
      | (name, attached) =>
        if used.contains name then .error .wrong
        else if name = "help" then .error (if attached.isNone then .help else .wrong)
        else if name = "version" then .error (if attached.isNone then .version else .wrong)
        else
          match o.setFlag? name, attached with
          | some o, .none => readAll rest (name :: used) o
          | some _, some _ => .error .wrong
          | .none, some value =>
            match o.setOption? name value with
            | some (some o) => readAll rest (name :: used) o
            | _ => .error .wrong
          | .none, .none =>
            match rest with
            | [] => .error .wrong
            | value :: rest =>
              if isValue value.toList then
                match o.setOption? name value with
                | some (some o) => readAll rest (name :: used) o
                | _ => .error .wrong
              else .error .wrong
    | '-' :: 'h' :: _ => .error .help
    | '-' :: 'V' :: _ => .error .version
    | _ => .error .wrong

def read (args : List String) : Except Usage Options := readAll args [] none

/-! ## The list of options -/

/-- Each option as it is typed, and what it is for. -/
def explanations : List (String × String) :=
  [("      --config <CONFIG>", "Configuration file (defaults to the platform config directory)"),
    ("      --window-us <WINDOW_US>", "Window length in sensor microseconds"),
    ("      --output-dir <OUTPUT_DIR>", "Root directory for recordings and captures"),
    ("      --stats-path <STATS_PATH>", "Save session statistics as JSON on exit"),
    ("      --log-level <LOG_LEVEL>",
      "Log filter, e.g. \"info\" or \"evs_window_logger=debug\" [default: info]"),
    ("      --list-sources", "List available cameras and exit"),
    ("      --show-config", "Print the effective configuration and exit"),
    ("      --bias-diff <BIAS_DIFF>", "Set bias_diff when the camera opens"),
    ("      --bias-diff-on <BIAS_DIFF_ON>", "Set bias_diff_on when the camera opens"),
    ("      --bias-diff-off <BIAS_DIFF_OFF>", "Set bias_diff_off when the camera opens"),
    ("      --bias-fo <BIAS_FO>", "Set bias_fo when the camera opens"),
    ("      --bias-hpf <BIAS_HPF>", "Set bias_hpf when the camera opens"),
    ("      --print-bias", "Print all biases when the camera first opens"),
    ("  -h, --help", "Print help"),
    ("  -V, --version", "Print version")]

def help : List String :=
  ["Fixed-window event camera logger", "", "Usage: evs-logger [OPTIONS]", "", "Options:"] ++
    explanations.flatMap fun (typed, purpose) => [typed, "          " ++ purpose]

/-! ## What follows from the options -/

/-- The bias values to write when a camera is opened. -/
def presets (o : Options) : List (String × BiasValue) :=
  [("bias_diff", o.biasDiff), ("bias_diff_on", o.biasDiffOn), ("bias_diff_off", o.biasDiffOff),
    ("bias_fo", o.biasFo), ("bias_hpf", o.biasHpf)].filterMap fun (name, value) => value.map (name, ·)

def wantsCamera (o : Options) : Bool := !o.presets.isEmpty || o.printBias

/-- Puts the options in place of the settings they name. -/
def override (o : Options) (s : Settings) : Settings :=
  { s with
    windowMicros := o.windowMicros.getD s.windowMicros
    outputRoot := o.outputDir.getD s.outputRoot
    statsPath := o.statsPath.or s.statsPath }

/-- Where the settings file is: the one that was named, or the user's own. -/
def settingsPath (o : Options) (configRoot : Path) : Path :=
  o.config.getD (Settings.usualPath configRoot)

/-- The settings to run with: the file that was named or the user's own, then the options. The file
is checked before the options are put in place, and the result once more. -/
def settings (o : Options) (tree : FileTree) (configRoot : Path) : Except SettingsError Settings :=
  let loaded := match o.config with
    | some p => Settings.loadFrom tree p
    | .none => Settings.loadUsual tree configRoot
  match loaded with
  | .error e => .error e
  | .ok s =>
    match (o.override s).check with
    | .error e => .error e
    | .ok () => .ok (o.override s)

end Options

end EventCamera
