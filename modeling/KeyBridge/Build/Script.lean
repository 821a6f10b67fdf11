import KeyBridge.Build.Box
import KeyBridge.Build.Check
import KeyBridge.Toml.Value

/-!
# The build script

What happens when the firmware is built: the memory map is written where the linker looks for it,
the linker is told what it needs, and the configuration is checked. A configuration that is missing
or wrong ends the build with a report. The reader of TOML is not part of the script: any will do.
-/

namespace KeyBridge.Build

/-! ## The memory map -/

/-- The memory map for the linker, line by line: where the boot loader, the program and the
variables lie in the memory of the chip. -/
def memoryMapLines : List String :=
  ["MEMORY \x7b",
    "    BOOT2 : ORIGIN = 0x10000000, LENGTH = 0x100",
    "    FLASH : ORIGIN = 0x10000100, LENGTH = 2048K - 0x100",
    "    RAM   : ORIGIN = 0x20000000, LENGTH = 256K",
    "\x7d",
    "",
    "EXTERN(BOOT2_FIRMWARE)",
    "",
    "SECTIONS \x7b",
    "    /* ### Boot loader */",
    "    .boot2 ORIGIN(BOOT2) :",
    "    \x7b",
    "        KEEP(*(.boot2));",
    "    \x7d > BOOT2",
    "\x7d INSERT BEFORE .text;",
    ""]

/-- The memory map for the linker. -/
def memoryMap : String := "\n".intercalate memoryMapLines

/-! ## Failures -/

/-- Why a build ends. -/
inductive Failure where
  /-- There is no configuration. -/
  | missing
  /-- The configuration is no text. -/
  | unreadable
  /-- The configuration is not written in TOML. -/
  | invalidSyntax
  /-- Something is wrong with the configuration. -/
  | refused (problems : List Problem)
deriving DecidableEq, Repr

namespace Failure

/-- The title of the report. -/
def title : Failure → String
  | missing => "converter.toml not found"
  | unreadable => "Failed to read converter.toml"
  | invalidSyntax => "Invalid TOML syntax in converter.toml"
  | refused _ => "Invalid converter.toml"

/-- The lines of the report. -/
def lines : Failure → List (List Char)
  | missing => ["The firmware embeds converter.toml; create one in keyconv-firmware.".toList]
  | unreadable => ["stream did not contain valid UTF-8".toList]
  | invalidSyntax => []
  | refused ps => ps.map Problem.message

/-- The report, unless a line would have to be cut within a character. -/
def report? (f : Failure) : Option (List Char) := box? f.title.toList f.lines

end Failure

/-- Checks the text of a configuration, of which `read` makes a value. -/
def checkText (read : Toml.Reader) (text : List Char) : Option Failure :=
  match read text with
  | none => some .invalidSyntax
  | some config => if problems config = [] then none else some (.refused (problems config))

/-- Checks the file of a configuration, if there is one. -/
def checkFile (read : Toml.Reader) (file : Option ByteArray) : Option Failure :=
  match file with
  | none => some .missing
  | some bytes =>
    match String.fromUTF8? bytes with
    | none => some .unreadable
    | some text => checkText read text.toList

/-- What the linker is told, and which files a later build depends on. -/
def directives (outDir : String) : List String :=
  ["cargo:rustc-link-search=" ++ outDir,
    "cargo:rustc-link-arg-bins=--nmagic",
    "cargo:rustc-link-arg-bins=-Tlink.x",
    "cargo:rustc-link-arg-bins=-Tlink-rp.x",
    "cargo:rustc-link-arg-bins=-Tdefmt.x",
    "cargo:rerun-if-changed=memory.x",
    "cargo:rerun-if-changed=build.rs",
    "cargo:rerun-if-changed=converter.toml"]

/-- What is said of a configuration with nothing wrong. -/
def success : String := "cargo:warning=converter.toml validated successfully"

/-- What a build prints, and why it ends early if it does. -/
structure Result where
  printed : List String
  failure : Option Failure
deriving DecidableEq, Repr

/-- Runs the build script with a reader of TOML, the directory for its output and the file of the
configuration. -/
def run (read : Toml.Reader) (outDir : String) (file : Option ByteArray) : Result :=
  match checkFile read file with
  | none => ⟨directives outDir ++ [success], none⟩
  | some f => ⟨directives outDir, some f⟩

end KeyBridge.Build
