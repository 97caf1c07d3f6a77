/-
From a source text to a world.
-/
import Adventure.Markup.Document
import Adventure.Prose.Cast
import Adventure.World.Building

namespace Adventure

namespace Compilation

/-- Reads a source in its format. -/
def read (format : SourceFormat) (config : Config) (source : String) : Except Error Draft :=
  match format with
  | .markup => Markup.readDocument .english source
  | .prose => Prose.readText .english config.maxWords source

/-- Builds the world of a program. -/
def build (files : Files) (config : Config) (ops : List Operation) : Except Error World :=
  let builder := World.builder ⟨config, files, .standard⟩
  match Execution.executeAll builder .english config.requireStart ops .emptyWorld with
  | .ok () x => .ok x.state
  | .error e _ => .error e

/-- Names the file in an error, if it has a name. -/
def blame (filename : Option String) (e : Error) : Error :=
  match filename with
  | some filename => e.inFile filename
  | none => e

/-- Compiles a source text.  Errors name the source if the configuration does. -/
def compile (files : Files) (format : SourceFormat) (config : Config) (source : String) :
    Except Error World :=
  Except.mapError (blame config.filename) do
    let draft ← read format config source
    build files config draft.program.operations

/-- Compiles a file, whose ending tells the format.  Errors name the file, unless the
configuration gives another name. -/
def compileFile (files : Files) (config : Config) (path : String) : Except Error World :=
  match files.read path with
  | .error f => .error (.of (.unreadable path f.message))
  | .ok source =>
    let filename := config.filename <|> some path
    compile files (.ofPath path) { config with filename } source

end Compilation

end Adventure
