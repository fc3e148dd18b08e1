import DiceHost.Text.Split

/-! # Bare script chunks

A script evaluates to a function of the call context. Many scripts are written as bare
chunks that use `msg` and a few helpers as if they were global; such a chunk becomes the
body of a function that defines the helpers first and fills in two placeholders of the
result. A script that already returns a function is only trimmed.
-/
namespace DiceHost.Script
open DiceHost.Text

/-- What stands before a bare chunk; the chunk starts on line 54. -/
def header : String := join "\n"
  ["return function(msg)",
    "  local function queryRule(query)",
    "    if msg.pluginRules then",
    "      for _, manual in pairs(msg.pluginRules) do",
    "        if manual[query] then",
    "          return manual[query]",
    "        end",
    "      end",
    "    end",
    "    local result = dice.queryRule(query)",
    "    if result and result.success then",
    "      return result.content",
    "    end",
    "    return nil",
    "  end",
    "",
    "  local function setGroupConf(gid, key, value)",
    "    dice.setGroupData(gid, key, tostring(value))",
    "  end",
    "  local function getGroupConf(gid, key)",
    "    return dice.getGroupData(gid, key)",
    "  end",
    "  local function setGroupData(gid, key, value)",
    "    dice.setGroupData(gid, key, tostring(value))",
    "  end",
    "  local function getGroupData(gid, key)",
    "    return dice.getGroupData(gid, key)",
    "  end",
    "  local function setUserData(uid, key, value)",
    "    dice.setUserData(uid, key, tostring(value))",
    "  end",
    "  local function getUserData(uid, key)",
    "    return dice.getUserData(uid, key)",
    "  end",
    "",
    "  local function getPlayerCard(uid, gid)",
    "    if msg.getPlayerCard then",
    "      return msg.getPlayerCard(uid, gid)",
    "    end",
    "    return nil",
    "  end",
    "",
    "  if msg.game and msg.game.pls then",
    "    setmetatable(msg.game.pls, \x7b",
    "      __index = \x7b",
    "        totable = function(self)",
    "          return self",
    "        end",
    "      \x7d",
    "    \x7d)",
    "  end",
    "",
    "  local __result = (function()",
    ""]

/-- What stands after a bare chunk. -/
def footer : String := join "\n"
  ["",
    "  end)()",
    "",
    "  if type(__result) == \"string\" then",
    "    local card = getGroupData(msg.gid, \"card#\" .. msg.uid) or msg.card",
    "    if card ~= nil and card ~= \"\" then",
    "      __result = __result:gsub(\"\x7bcard\x7d\", function() return tostring(card) end)",
    "    end",
    "    local pc = msg.char and msg.char.__Name or \"\"",
    "    __result = __result:gsub(\"\x7bpc\x7d\", function() return tostring(pc) end)",
    "  end",
    "",
    "  return __result",
    "end"]

/-- The text starts with `return`, at least one blank, and `function`. -/
def isFunctionForm (code : String) : Bool :=
  match stripPrefixChars "return".toList (trimStartChars code.toList) with
  | some (c :: rest) =>
    isBlank c && (stripPrefixChars "function".toList (trimStartChars rest)).isSome
  | _ => false

def wrap (code : String) : String :=
  if isFunctionForm code then trim code else header ++ code ++ footer

end DiceHost.Script
