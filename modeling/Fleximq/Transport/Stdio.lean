import Fleximq.Foundation.Words
import Fleximq.Transport.Dispatch

/-! # The command of a stdio URL

`StdioTransport::connect` runs the command that the URL spells out, or the
configured one when the URL names none. The working directory and the variables
are the configured ones in either case.
-/
namespace Fleximq.Transport
open Foundation

/-- `char::is_whitespace`. -/
def isWhitespace (c : Char) : Bool :=
  (0x9 ≤ c.val && c.val ≤ 0xD) || c.val = 0x20 || c.val = 0x85 || c.val = 0xA0 || c.val = 0x1680 ||
    (0x2000 ≤ c.val && c.val ≤ 0x200A) || c.val = 0x2028 || c.val = 0x2029 || c.val = 0x202F || c.val = 0x205F ||
    c.val = 0x3000

def splitWhitespace (text : String) : List String := (words isWhitespace text.toList).map String.ofList

structure StdioConfig where
  command : String
  args : List String
  env : List (String × String)
  workingDir : Option String
  deriving DecidableEq

/-- The `Command` that `connect` builds; its pipes are the same in every call. -/
structure Command where
  program : String
  args : List String
  currentDir : Option String
  envs : List (String × String)
  deriving DecidableEq

namespace StdioTransport

def commandFor (config : StdioConfig) (program : String) (args : List String) : Command :=
  ⟨program, args, config.workingDir, config.env⟩

/-- `connect` up to the spawn; `none` when it takes the streams of its own process. -/
def command (config : StdioConfig) (url : String) : Except TransportError (Option Command) :=
  match StdioTransport.checkUrl url with
  | .error e => .error e
  | .ok none =>
    if config.command = "" then .ok none else .ok (some (commandFor config config.command config.args))
  | .ok (some cmdPart) =>
    let noCommand := .error (.invalidUrl
      "Invalid command specified in STDIO URL (e.g., empty or missing after stdio://).")
    match splitWhitespace cmdPart with
    | [] => noCommand
    | program :: args => if program = "" then noCommand else .ok (some (commandFor config program args))

/-! ## What a URL connects to -/

/-- The program and its arguments are the words of the text. -/
def SpeltAs (text program : String) (args : List String) : Prop :=
  Spells isWhitespace ((program :: args).map String.toList) text.toList

/-- What `connect` takes the streams of: its own process, or a child that runs a command. -/
inductive Connects (config : StdioConfig) : String → Option Command → Prop where
  | own (hNone : config.command = "") : Connects config "stdio://" none
  | configured (hSome : config.command ≠ "") :
    Connects config "stdio://" (some (commandFor config config.command config.args))
  | spelt {cmdPart program : String} {args : List String} (hSpelt : SpeltAs cmdPart program args) :
    Connects config ("stdio://" ++ cmdPart) (some (commandFor config program args))

theorem splitWhitespace_eq_iff {text : String} {ws : List String} :
    splitWhitespace text = ws ↔ Spells isWhitespace (ws.map String.toList) text.toList := by
  rw [← words_eq_iff, splitWhitespace]
  constructor
  · rintro rfl
    simp [Function.comp_def]
  · intro h
    simp [h, Function.comp_def]

theorem SpeltAs.program_ne {text program : String} {args : List String} (h : SpeltAs text program args) :
    program ≠ "" := by
  rintro rfl
  exact (h.isWord [] List.mem_cons_self).ne_nil rfl

theorem SpeltAs.text_ne {text program : String} {args : List String} (h : SpeltAs text program args) :
    text ≠ "" := by
  rintro rfl
  exact absurd (splitWhitespace_eq_iff.mpr h) (by simp [splitWhitespace])

theorem checkUrl_append {cmdPart : String} (h : cmdPart ≠ "") :
    StdioTransport.checkUrl ("stdio://" ++ cmdPart) = .ok (some cmdPart) := by
  have hLonger : "stdio://" ++ cmdPart ≠ "stdio://" := by simpa using h
  rw [StdioTransport.checkUrl, if_neg hLonger, stripPrefix_append]

theorem command_spelt {config : StdioConfig} {cmdPart program : String} {args : List String}
    (h : SpeltAs cmdPart program args) :
    command config ("stdio://" ++ cmdPart) = .ok (some (commandFor config program args)) := by
  simp [command, checkUrl_append h.text_ne, splitWhitespace_eq_iff.mpr h, h.program_ne]

theorem command_bare (config : StdioConfig) :
    command config "stdio://" =
      if config.command = "" then .ok none else .ok (some (commandFor config config.command config.args)) := by
  simp [command, StdioTransport.checkUrl]

theorem checkUrl_cases (url : String) :
    url = "stdio://" ∨ (∃ cmdPart, cmdPart ≠ "" ∧ url = "stdio://" ++ cmdPart) ∨
      ∃ e, StdioTransport.checkUrl url = .error e := by
  rw [StdioTransport.checkUrl]
  split
  next hBare => exact .inl hBare
  next hBare =>
    cases hPrefix : startsWith url "stdio://" with
    | true =>
      obtain ⟨cmdPart, rfl⟩ := startsWith_iff.mp hPrefix
      exact .inr (.inl ⟨cmdPart, by simpa using hBare, rfl⟩)
    | false => simp [stripPrefix, hPrefix]

theorem speltAs_of_command {config : StdioConfig} {cmdPart : String} {result : Option Command}
    (hSome : cmdPart ≠ "") (h : command config ("stdio://" ++ cmdPart) = .ok result) :
    ∃ program args, SpeltAs cmdPart program args ∧ result = some (commandFor config program args) := by
  rw [command, checkUrl_append hSome] at h
  dsimp only at h
  cases hWords : splitWhitespace cmdPart with
  | nil => simp [hWords] at h
  | cons program args =>
    have hSpelt : SpeltAs cmdPart program args := splitWhitespace_eq_iff.mp hWords
    rw [hWords] at h
    dsimp only at h
    rw [if_neg hSpelt.program_ne] at h
    cases h
    exact ⟨program, args, hSpelt, rfl⟩

/-- A URL connects exactly to what it spells or, when it spells nothing, to what is configured. -/
theorem command_eq_ok_iff {config : StdioConfig} {url : String} {result : Option Command} :
    command config url = .ok result ↔ Connects config url result := by
  constructor
  · intro h
    rcases checkUrl_cases url with rfl | ⟨cmdPart, hSome, rfl⟩ | ⟨e, hError⟩
    · rw [command_bare] at h
      split at h
      next hNone =>
        cases h
        exact .own hNone
      next hSome =>
        cases h
        exact .configured hSome
    · obtain ⟨program, args, hSpelt, rfl⟩ := speltAs_of_command hSome h
      exact .spelt hSpelt
    · simp [command, hError] at h
  · intro h
    cases h with
    | own hNone => rw [command_bare, if_pos hNone]
    | configured hSome => rw [command_bare, if_neg hSome]
    | spelt hSpelt => exact command_spelt hSpelt

/-! ## The way back -/

/-- A word that a URL can spell. -/
def Spellable (word : String) : Prop := word ≠ "" ∧ ∀ c ∈ word.toList, isWhitespace c = false

def urlOf (program : String) (args : List String) : String :=
  "stdio://" ++ " ".intercalate (program :: args)

theorem isWord_iff {word : String} : IsWord isWhitespace word.toList ↔ Spellable word := by
  constructor
  · intro h
    refine ⟨?_, h.unbroken⟩
    rintro rfl
    exact h.ne_nil rfl
  · rintro ⟨hSome, hUnbroken⟩
    exact ⟨by simpa using hSome, hUnbroken⟩

theorem speltAs_intercalate_iff {program : String} {args : List String} :
    SpeltAs (" ".intercalate (program :: args)) program args ↔ ∀ word ∈ program :: args, Spellable word := by
  rw [SpeltAs, ← words_eq_iff, String.toList_intercalate, show " ".toList = [' '] from rfl,
    words_intercalate_iff (by decide)]
  simp [isWord_iff]

theorem eq_empty_of_intercalate {program : String} {args : List String}
    (h : " ".intercalate (program :: args) = "") : program = "" := by
  have hList := congrArg String.toList h
  rw [String.toList_intercalate] at hList
  cases args with
  | nil => simpa using hList
  | cons arg args => simp at hList

/-- A command comes back from the URL made of it exactly when its program and all its arguments are words. -/
theorem command_urlOf_iff {config : StdioConfig} {program : String} {args : List String} :
    command config (urlOf program args) = .ok (some (commandFor config program args)) ↔
      ∀ word ∈ program :: args, Spellable word := by
  constructor
  · intro h
    have hText : " ".intercalate (program :: args) ≠ "" := by
      intro hEmpty
      rw [urlOf, hEmpty, String.append_empty, command_bare, eq_empty_of_intercalate hEmpty] at h
      split at h
      next => cases h
      next hSome =>
        simp only [commandFor, Except.ok.injEq, Option.some.injEq, Command.mk.injEq] at h
        exact hSome h.1
    obtain ⟨program', args', hSpelt, hSame⟩ := speltAs_of_command hText h
    cases hSame
    exact speltAs_intercalate_iff.mp hSpelt
  · intro h
    exact command_spelt (speltAs_intercalate_iff.mpr h)

/-- An argument with a blank in it arrives as two. -/
example : command ⟨"", [], [], none⟩ (urlOf "echo" ["a b"]) = .ok (some ⟨"echo", ["a", "b"], none, []⟩) := by decide

end StdioTransport
end Fleximq.Transport
