import DialogScript.Error

/-!
# Where dialogs come from

A dialog is stored in a file named after it. A loader finds the source of a dialog by its name.
-/

namespace DialogScript

/-- The name of the file that holds a dialog. -/
def dialogFileName (name : String) : String := name ++ ".byack"

/-- Finds the source of a dialog by its name. -/
abbrev Loader := String → Except Error String

/-- No dialog has the name. -/
def Error.notFound (name : String) : Error := { kind := .dialogNotFound name }

/-- Finds dialogs in a list of names and sources. Of several dialogs of a name, the last counts. -/
def Loader.ofDialogs (dialogs : List (String × String)) : Loader := fun name =>
  match dialogs.reverse.find? fun d => dialogFileName d.1 = dialogFileName name with
  | some (_, source) => .ok source
  | none => .error (.notFound name)

end DialogScript
