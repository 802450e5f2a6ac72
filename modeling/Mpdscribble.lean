import Mpdscribble.StrMap
import Mpdscribble.StringUtil
import Mpdscribble.IniFile
import Mpdscribble.IniGrammar
import Mpdscribble.IniSections
import Mpdscribble.ReadIniFile
import Mpdscribble.IniValid
import Mpdscribble.IniRender
import Mpdscribble.Config
import Mpdscribble.ReadConfig
import Mpdscribble.Main
import Mpdscribble.PlayedTime
