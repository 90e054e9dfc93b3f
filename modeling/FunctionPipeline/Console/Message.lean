import FunctionPipeline.Console.Layout
import FunctionPipeline.Console.Markup

/-!
Messages for a reader at a console. A banner stands in a line of its own, above what belongs to it;
any other message starts with a mark that shows its kind.
-/

namespace FunctionPipeline

inductive MessageKind where
  | banner
  | success
  | info
  | warning
  | error
  deriving DecidableEq, Repr, Inhabited

namespace MessageKind

def name : MessageKind → String
  | .banner => "banner"
  | .success => "success"
  | .info => "info"
  | .warning => "warning"
  | .error => "error"

def ofName? (name : String) : Option MessageKind :=
  [banner, success, info, warning, error].find? fun k => k.name == name

def mark : MessageKind → String
  | .banner => ""
  | .success => "[bold green]✓[/bold green] "
  | .info => "[bold cyan]ℹ[/bold cyan] "
  | .warning => "[bold yellow]⚠[/bold yellow] "
  | .error => "[bold red]✗[/bold red] "

end MessageKind

structure Message where
  kind : MessageKind
  text : String
  deriving DecidableEq, Repr, Inhabited

namespace Message

def width : Nat := 80

def markup (m : Message) : String :=
  match m.kind with
  | .banner => "[bold blue]" ++ m.text ++ "[/bold blue]"
  | kind => kind.mark ++ m.text

def lines (m : Message) : Except Markup.Error (List (List Char)) := do
  let chars ← Markup.chars m.markup.toList
  match m.kind with
  | .banner => return [Layout.rule width chars]
  | _ => return Layout.wrap width chars

def shown (m : Message) : Except Markup.Error String := do
  return String.ofList ((← m.lines).flatMap fun line => line ++ ['\n'])

end Message

end FunctionPipeline
