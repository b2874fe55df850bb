import StyleTokens.Json.Writer

/-!
The plan that a build has when none is given.

* `bundledPlan`: ten platforms for the web, for phones and for television.
-/

namespace StyleTokens

/-- A list of strings as a value. -/
def stringValues (names : List String) : Json := .arr (names.map .str)

/-- The sources of all platforms, with one file for the typography of a device. -/
def bundledSources (device : String) : Json :=
  stringValues ["tokens/color_base/tokens.json", "tokens/color_theme/light.json",
    "tokens/dimensions/variables.json", "tokens/component/variables.json",
    "tokens/typography/" ++ device ++ ".json"]

/-- A platform with one file. -/
def bundledPlatform (name : String) (transforms : List String) (buildPath destination format : String)
    (more : Fields := []) (source : Fields := []) : String × Json :=
  (name, .obj ([("transforms", stringValues transforms), ("build_path", .str buildPath)] ++ source ++
    [("files", .arr [.obj ([("destination", .str destination), ("format", .str format)] ++ more)])]))

/-- The options under which aliases are written. -/
def aliasOptions : Fields := [("options", .obj [("output_references", .bool true)])]

/-- The sources for television. -/
def televisionSources : Fields := [("source", bundledSources "tv")]

/-- The plan that a build has when none is given. -/
def bundledPlan : Json :=
  .obj [("title", .str "Design Tokens"), ("namespace", .str "DesignTokens"),
    ("source", bundledSources "desktop"),
    ("platforms", .obj [
      bundledPlatform "react-native" ["name/camel", "size/number"] "packages/react-native/src/"
        "tokens.ts" "typescript/nested",
      bundledPlatform "web-css" ["name/kebab", "size/px"] "packages/web/" "tokens.css"
        "css/variables" aliasOptions,
      bundledPlatform "web-scss" ["name/kebab", "size/px"] "packages/web/" "tokens.scss"
        "scss/variables",
      bundledPlatform "roku" ["name/pascal", "size/number", "color/rokuHex"] "packages/roku/"
        "DesignTokens.brs" "brightscript/tokens",
      bundledPlatform "tvos" ["name/camel", "size/number"] "packages/tvos/" "DesignTokens.swift"
        "swift/tokens",
      bundledPlatform "android-colors" ["name/snake", "color/argb"] "packages/android/"
        "colors.xml" "android/colors" [("filter", .str "is_color")],
      bundledPlatform "android-dimens" ["name/snake", "size/sp", "size/dp"] "packages/android/"
        "dimens.xml" "android/resources"
        [("filter", .str "is_dimension"), ("options", .obj [("resource_type", .str "dimen")])],
      bundledPlatform "xbox" ["name/pascal", "size/number", "color/argb"] "packages/xbox/"
        "Tokens.xaml" "xaml/resourceDictionary",
      bundledPlatform "web-tv-css" ["name/kebab", "size/px"] "packages/web-tv/" "tokens.css"
        "css/variables" aliasOptions televisionSources,
      bundledPlatform "web-tv-js" ["name/camel", "size/number"] "packages/web-tv/" "tokens.js"
        "javascript/es6" [] televisionSources])]

end StyleTokens
