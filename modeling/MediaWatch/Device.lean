import MediaWatch.Text.Word

/-! # Devices

What a user agent string tells about a device. Everything but touch input is read off the string.
-/

namespace MediaWatch

/-- A device as its user agent describes it. -/
structure Device where
  userAgent : Text := []
  /-- A crawler or another automated agent. -/
  bot : Bool := false
  /-- A phone or a tablet. -/
  mobile : Bool := false
  android : Bool := false
  ios : Bool := false
  /-- Touch input is available; no user agent says so. -/
  touch : Bool := false
  blink : Bool := false
  edge : Bool := false
  gecko : Bool := false
  safari : Bool := false
  webkit : Bool := false
  ie : Bool := false
deriving DecidableEq, Repr

namespace Device

/-- Whether one of the lower-case words occurs in the user agent, in any case. -/
def mentionsAny (words : List String) (userAgent : Text) : Bool :=
  words.any fun word => Text.mentions word.toList userAgent

/-- Whether one of the words occurs in the user agent as written. -/
def containsAny (words : List String) (userAgent : Text) : Bool :=
  words.any fun word => Text.contains word.toList userAgent

/-- Whether `gecko/` and a digit stand where a word begins; `inside` tells whether the character in
front belongs to a word. -/
def hasGecko (inside : Bool) : Text → Bool
  | [] => false
  | c :: rest =>
    (!inside && match Text.afterFolded? "gecko/".toList (c :: rest) with
      | some (d :: _) => Text.isWordDigit d
      | _ => false) || hasGecko (Text.isWordChar c) rest

def botWords : List String :=
  ["chrome-lighthouse", "google page speed insights", "bot", "crawl", "spider", "slurp"]

def mobileWords : List String :=
  ["android", "webos", "iphone", "ipad", "ipod", "blackberry", "iemobile", "opera mini"]

/-- The words of browsers that call themselves Safari without being it. -/
def foreignSafariWords : List String :=
  ["chrome", "chromium", "crios", "fxios", "android", "edg"]

def ofUserAgent (userAgent : Text) : Device where
  userAgent
  bot := mentionsAny botWords userAgent
  mobile := mentionsAny mobileWords userAgent
  android := mentionsAny ["android"] userAgent
  ios := containsAny ["iPad", "iPhone", "iPod"] userAgent
  blink := mentionsAny ["chrome/", "chromium/", "crios/", "opr/"] userAgent
  edge := containsAny ["Edg/", "Edge/", "EdgA/", "EdgiOS/"] userAgent
  gecko := hasGecko false userAgent
  safari := mentionsAny ["safari/"] userAgent && !mentionsAny foreignSafariWords userAgent
  webkit := mentionsAny ["applewebkit/"] userAgent
  ie := containsAny ["Trident/", "MSIE "] userAgent

def flags (d : Device) : List String :=
  ([("bot", d.bot), ("mobile", d.mobile), ("android", d.android), ("ios", d.ios),
    ("touch", d.touch), ("blink", d.blink), ("edge", d.edge), ("gecko", d.gecko),
    ("safari", d.safari), ("webkit", d.webkit), ("ie", d.ie)].filter (·.2)).map (·.1)

end Device

end MediaWatch
