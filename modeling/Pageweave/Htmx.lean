import Pageweave.Text.Blank
import Pageweave.Value.Basic
/-!
# Partial requests

The `HX-` headers with which a page in the browser asks for a part of itself. Names match up to the case of ASCII
letters. Three headers count by being there; five carry a text, where the last one wins and a blank one clears it.
-/
namespace Pageweave

namespace Htmx

def requestHeader : String := "HX-Request"
def boostedHeader : String := "HX-Boosted"
def currentUrlHeader : String := "HX-Current-URL"
def historyRestoreHeader : String := "HX-History-Restore-Request"
def promptHeader : String := "HX-Prompt"
def targetHeader : String := "HX-Target"
def triggerHeader : String := "HX-Trigger"
def triggerNameHeader : String := "HX-Trigger-Name"

def requestHeaders : List String :=
  [requestHeader, boostedHeader, currentUrlHeader, historyRestoreHeader, promptHeader, targetHeader, triggerHeader,
    triggerNameHeader]

/-- The headers that an answer may carry. -/
def responseHeaders : List String :=
  ["HX-Location", "HX-Push-Url", "HX-Redirect", "HX-Refresh", "HX-Replace-Url", "HX-Reswap", "HX-Retarget",
    "HX-Reselect", "HX-Trigger", "HX-Trigger-After-Settle", "HX-Trigger-After-Swap"]

end Htmx

/-- What the headers of a request say. -/
structure Htmx where
  request : Bool := false
  boosted : Bool := false
  historyRestore : Bool := false
  currentUrl : Option String := none
  prompt : Option String := none
  target : Option String := none
  trigger : Option String := none
  triggerName : Option String := none
  deriving DecidableEq

namespace Htmx

/-- A text header's value without the blanks around it; nothing if only blanks are there. -/
def filled? (value : String) : Option String :=
  let trimmed := Text.trim value
  if trimmed = "" then none else some trimmed

/-- Takes one header into account. -/
def read (h : Htmx) (header : String × String) : Htmx :=
  let (name, value) := header
  if Text.sameWord name requestHeader then { h with request := true }
  else if Text.sameWord name boostedHeader then { h with boosted := true }
  else if Text.sameWord name historyRestoreHeader then { h with historyRestore := true }
  else if Text.sameWord name currentUrlHeader then { h with currentUrl := filled? value }
  else if Text.sameWord name promptHeader then { h with prompt := filled? value }
  else if Text.sameWord name targetHeader then { h with target := filled? value }
  else if Text.sameWord name triggerHeader then { h with trigger := filled? value }
  else if Text.sameWord name triggerNameHeader then { h with triggerName := filled? value }
  else h

def ofHeaders (headers : List (String × String)) : Htmx := headers.foldl read {}

/-- A request for a fragment that says nothing else. -/
def fragment : Htmx := { request := true }

/-- The value that templates see. -/
def toValue (h : Htmx) : Value :=
  .object (Fields.ofList [
    ("request", .bool h.request), ("boosted", .bool h.boosted), ("history_restore", .bool h.historyRestore),
    ("current_url", .ofOption h.currentUrl), ("prompt", .ofOption h.prompt), ("target", .ofOption h.target),
    ("trigger", .ofOption h.trigger), ("trigger_name", .ofOption h.triggerName)])

end Htmx
end Pageweave
