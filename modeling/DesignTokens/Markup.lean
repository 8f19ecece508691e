/-
# DesignTokens.Markup -- style tags in messages

Messages carry their style in tags, a name in square brackets.  Text from a document must not be
taken for a tag; how it is kept from that is up to what shows the messages (`Display.escape`).
-/

namespace DesignTokens.Markup

set_option autoImplicit false

def styled (style text : String) : String :=
  s!"[{style}]{text}[/{style}]"

def bold (text : String) : String := styled "bold" text

def dim (text : String) : String := styled "dim" text

/-- The signs in front of lines. -/
def approval : String := styled "green" "✓"
def failure : String := styled "red" "✗"
def caution : String := styled "yellow" "⚠"
def detail : String := styled "cyan" "↳"

end DesignTokens.Markup
