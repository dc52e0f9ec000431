/-!
# The bundled templates

The components and the layout that come with the program, in the order of their keys.
-/
namespace Pageweave.Bundled

def alert : String :=
  "\x7b#- Alert box. Args: message, kind (info | success | warning | error) -#\x7d\n" ++
  "<div role=\"alert\" class=\"alert alert-\x7b\x7b kind | default(value=\"info\") \x7d\x7d\">\n" ++
  "  <span>\x7b\x7b message \x7d\x7d</span>\n" ++
  "</div>\n"

def badge : String :=
  "\x7b#- Inline badge. Args: text, variant (primary, secondary, ...), outline -#\x7d\n" ++
  "<span class=\"badge badge-\x7b\x7b variant | default(value=\"neutral\") \x7d\x7d\x7b% if outline | " ++
  "default(value=false) %\x7d badge-outline\x7b% endif %\x7d\">\x7b\x7b text \x7d\x7d</span>\n"

def button : String :=
  "\x7b#- HTMX button. Args: label, url, target, method (get | post | put | delete) -#\x7d\n" ++
  "\x7b%- set verb = method | default(value=\"get\") -%\x7d\n" ++
  "<button class=\"btn\" hx-\x7b\x7b verb \x7d\x7d=\"\x7b\x7b url \x7d\x7d\"\x7b% if target %\x7d " ++
  "hx-target=\"\x7b\x7b target \x7d\x7d\"\x7b% endif %\x7d>\x7b\x7b label \x7d\x7d</button>\n"

def emptyState : String :=
  "\x7b#- Placeholder for empty lists. Args: title, description -#\x7d\n" ++
  "<div class=\"empty-state\">\n" ++
  "  <h3>\x7b\x7b title | default(value=\"No results\") \x7d\x7d</h3>\n" ++
  "  \x7b%- if description %\x7d\n" ++
  "  <p>\x7b\x7b description \x7d\x7d</p>\n" ++
  "  \x7b%- endif %\x7d\n" ++
  "</div>\n"

def toast : String :=
  "\x7b#- Toast notification. Args: message, kind, position (end | start | center) -#\x7d\n" ++
  "<div class=\"toast toast-\x7b\x7b position | default(value=\"end\") \x7d\x7d\">\n" ++
  "  <div class=\"alert alert-\x7b\x7b kind | default(value=\"info\") \x7d\x7d\">\n" ++
  "    <span>\x7b\x7b message \x7d\x7d</span>\n" ++
  "  </div>\n" ++
  "</div>\n"

def baseLayout : String :=
  "<!DOCTYPE html>\n" ++
  "<html lang=\"\x7b\x7b lang | default(value=\"en\") \x7d\x7d\">\n" ++
  "<head>\n" ++
  "  <meta charset=\"utf-8\">\n" ++
  "  <meta name=\"viewport\" content=\"width=device-width, initial-scale=1\">\n" ++
  "  <title>\x7b\x7b title | default(value=\"hxview\") \x7d\x7d</title>\n" ++
  "  <script src=\"\x7b\x7b asset(path=\"/js/htmx.min.js\") \x7d\x7d\" defer></script>\n" ++
  "</head>\n" ++
  "<body hx-boost=\"true\">\n" ++
  "  <main id=\"content\">\n" ++
  "\x7b\x7b content | safe \x7d\x7d\n" ++
  "  </main>\n" ++
  "</body>\n" ++
  "</html>\n"

/-- Keys and texts. -/
def templates : List (String × String) :=
  [("components/alert", alert),
    ("components/badge", badge),
    ("components/button", button),
    ("components/empty_state", emptyState),
    ("components/toast", toast),
    ("layouts/base", baseLayout)]

end Pageweave.Bundled
